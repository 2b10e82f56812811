import HyperPod.Lib.FloatText
import HyperPod.Scaling.Discovery
import HyperPod.Scaling.Monitor

/-!
# The load probes: `scaling/probes.rs`

On Windows a probe takes the share of the CPU time since its last snapshot that was not
idle, on Linux the load average over the number of CPUs; both compute in binary64.  A
`LoadProbe` is to return a load in `[0.0, 1.0]`, and so they do, unless the text of the load
average is NaN (`loadNormalized_mem`).
-/

namespace HyperPod

open Machine Binary64

/-! ## Windows -/

/-- `FILETIME` -/
structure FileTime where
  lowDateTime : UInt32
  highDateTime : UInt32
deriving Repr, DecidableEq

def ftToU64 (ft : FileTime) : UInt64 :=
  (ft.highDateTime.toUInt64 <<< 32) ||| ft.lowDateTime.toUInt64

/-- What `GetSystemTimes` fills in. -/
structure SystemTimes where
  idle : FileTime
  kernel : FileTime
  user : FileTime
deriving Repr, DecidableEq

/-- The time that the CPUs have been idle, and all their time. -/
structure CpuTimes where
  idle : UInt64
  total : UInt64
deriving Repr, DecidableEq

/-- `times` is the answer of `GetSystemTimes`, if it served the call. -/
def snapshot : Option SystemTimes → Except Error CpuTimes
  | none => .error (.msg "GetSystemTimes failed")
  | some times => .ok ⟨ftToU64 times.idle, ftToU64 times.kernel + ftToU64 times.user⟩

structure GetSystemTimesProbe where
  last : CpuTimes
deriving Repr, DecidableEq

/-- The busy fraction of `dtotal` units of time, of which `didle` were idle. -/
def cpuLoad (didle dtotal : Nat) : Binary64 :=
  if dtotal = 0 then zero
  else Binary64.clamp (sub one (div (ofNat didle) (ofNat dtotal))) zero one

namespace GetSystemTimesProbe

def new (times : Option SystemTimes) : Except Error GetSystemTimesProbe := do
  let s ← snapshot times
  return ⟨s⟩

def loadNormalized (times : Option SystemTimes) (probe : GetSystemTimesProbe) :
    Reading × GetSystemTimesProbe :=
  match snapshot times with
  | .error e => (.error e, probe)
  | .ok now =>
    let didle := now.idle.toNat - probe.last.idle.toNat
    let dtotal := now.total.toNat - probe.last.total.toNat
    (.ok (cpuLoad didle dtotal), ⟨now⟩)

section
variable {times : Option SystemTimes} {probe : GetSystemTimesProbe}

theorem new_ok {now : CpuTimes} (h : snapshot times = .ok now) : new times = .ok ⟨now⟩ := by
  unfold new
  rw [h]
  rfl

theorem loadNormalized_error {e : Error} (h : snapshot times = .error e) :
    probe.loadNormalized times = (.error e, probe) := by
  unfold loadNormalized
  rw [h]

theorem loadNormalized_ok {now : CpuTimes} (h : snapshot times = .ok now) :
    probe.loadNormalized times = (.ok (cpuLoad (now.idle.toNat - probe.last.idle.toNat)
      (now.total.toNat - probe.last.total.toNat)), ⟨now⟩) := by
  unfold loadNormalized
  rw [h]

end

end GetSystemTimesProbe

/-! ## Linux -/

/-- The first word of a text, if it has one. -/
def firstWord (text : List Char) : Option (List Char) :=
  match (text.dropWhile isWhitespace).takeWhile (fun c => !isWhitespace c) with
  | [] => none
  | word => some word

/-- The load over `numCpus`, up to a full one. -/
def averageLoad (load1 : Binary64) (numCpus : Nat) : Binary64 :=
  Binary64.clamp (div load1 (ofNat numCpus)) zero one

/-- `loadavg` is what reading `/proc/loadavg` gives. -/
def ProcLoadProbe.loadNormalized (probe : ProcLoadProbe) (loadavg : Except Error String) :
    Reading := do
  let s ← loadavg.mapError (.context "read /proc/loadavg")
  match firstWord s.toList with
  | none => .error (.msg "/proc/loadavg empty")
  | some first =>
    let load1 ← (FloatText.parse first).mapError (.context "parse loadavg")
    return averageLoad load1 probe.numCpus

/-! ## The contract of `LoadProbe` -/

/-- In `[0.0, 1.0]`. -/
structure InUnit (load : Binary64) : Prop where
  ge : zero ≤ load
  le : load ≤ one

theorem inUnit_clamp {x : Binary64} (hx : x.isNan = false) :
    InUnit (Binary64.clamp x zero one) := by
  obtain ⟨hge, hle⟩ := clamp_mem hx (by decide : zero ≤ one)
  exact ⟨hge, hle⟩

/-- The quotient that the probe computes: it is finite, -/
theorem exists_div_eq (hidle : didle < 2 ^ 64) (htotal : dtotal < 2 ^ 64) (h0 : dtotal ≠ 0) :
    ∃ m, m < infinite ∧ div (ofNat didle) (ofNat dtotal) = ofMagnitude false m ∧
      m = nearest (valueOf (nearest didle) / valueOf (nearest dtotal)) := by
  have hone := one_le_valueOf_nearest h0
  refine ⟨_, ?_, div_eq_round (nearest_natCast_lt hidle) (nearest_natCast_lt htotal)
    (nearest_natCast_ne_zero h0), rfl⟩
  have hle : valueOf (nearest didle) / valueOf (nearest dtotal) ≤ valueOf (nearest (2 ^ 64)) := by
    rw [div_le_iff₀ (by linarith)]
    have hidle' : valueOf (nearest didle) ≤ valueOf (nearest (2 ^ 64)) :=
      valueOf_mono (nearest_mono (by exact_mod_cast hidle.le))
    nlinarith [valueOf_nonneg (nearest (2 ^ 64))]
  exact (nearest_le (nearest_le_infinite _) hle).trans_lt (by decide +kernel)

theorem inUnit_cpuLoad {didle dtotal : Nat} (hidle : didle < 2 ^ 64) (htotal : dtotal < 2 ^ 64) :
    InUnit (cpuLoad didle dtotal) := by
  by_cases h0 : dtotal = 0
  · rw [show cpuLoad didle dtotal = zero from if_pos h0]
    exact ⟨by decide, by decide⟩
  · obtain ⟨m, hm, hdiv, -⟩ := exists_div_eq hidle htotal h0
    unfold cpuLoad
    rw [if_neg h0, hdiv, one_eq]
    exact inUnit_clamp (isNan_sub (by decide) hm)

theorem inUnit_averageLoad {load1 : Binary64} {numCpus : Nat} (hload : load1.isNan = false)
    (h0 : numCpus ≠ 0) (hcpus : numCpus < 2 ^ 64) : InUnit (averageLoad load1 numCpus) :=
  inUnit_clamp (isNan_div hload (nearest_natCast_lt hcpus) (nearest_natCast_ne_zero h0))

/-- The load average is NaN, by its first word. -/
def SaysNan (loadavg : Except Error String) : Prop :=
  ∃ s first, loadavg = .ok s ∧ firstWord s.toList = some first ∧
    FloatText.word (FloatText.sign first).2 = some nan.magnitude

theorem GetSystemTimesProbe.inUnit_of_ok {times : Option SystemTimes}
    {probe : GetSystemTimesProbe} {load : Binary64}
    (h : (probe.loadNormalized times).1 = .ok load) : InUnit load := by
  cases hnow : snapshot times with
  | error e =>
    rw [loadNormalized_error hnow] at h
    cases h
  | ok now =>
    rw [loadNormalized_ok hnow] at h
    cases h
    have hidle := now.idle.toNat_lt
    have htotal := now.total.toNat_lt
    exact inUnit_cpuLoad (by omega) (by omega)

/-- A NaN passes through the division and the clamping. -/
theorem not_inUnit_averageLoad {load1 : Binary64} {numCpus : Nat} (hload : load1.isNan = true) :
    ¬ InUnit (averageLoad load1 numCpus) := by
  have hdiv : div load1 (ofNat numCpus) = nan := by
    unfold div
    rw [hload]
    rfl
  unfold averageLoad
  rw [hdiv]
  rintro ⟨hge, -⟩
  exact absurd hge (by decide)

theorem ProcLoadProbe.inUnit_iff {probe : ProcLoadProbe} {loadavg : Except Error String}
    {load : Binary64} (h0 : probe.numCpus ≠ 0) (hcpus : probe.numCpus < 2 ^ 64)
    (h : probe.loadNormalized loadavg = .ok load) : InUnit load ↔ ¬ SaysNan loadavg := by
  unfold loadNormalized at h
  cases loadavg with
  | error e => cases h
  | ok s =>
    cases hfirst : firstWord s.toList with
    | none =>
      simp only [Except.mapError, bind, Except.bind, hfirst] at h
      cases h
    | some first =>
      simp only [Except.mapError, bind, Except.bind, hfirst] at h
      have hspelt : SaysNan (.ok s) ↔
          FloatText.word (FloatText.sign first).2 = some nan.magnitude := by
        constructor
        · rintro ⟨s', first', hs, hfirst', hword⟩
          cases hs
          rw [hfirst] at hfirst'
          cases hfirst'
          exact hword
        · exact fun hword => ⟨s, first, rfl, hfirst, hword⟩
      cases hparse : FloatText.parse first with
      | error e =>
        rw [hparse] at h
        cases h
      | ok load1 =>
        rw [hparse] at h
        cases h
        rw [hspelt]
        constructor
        · intro hunit hword
          obtain ⟨x, hx, hnan⟩ := FloatText.exists_nan_of_word hword
          cases hparse.symm.trans hx
          exact not_inUnit_averageLoad hnan hunit
        · exact fun hword => inUnit_averageLoad (FloatText.isNan_of_parse hparse hword) h0 hcpus

theorem ProcLoadProbe.numCpus_ne_zero {host : ProcHost} {probe : ProcLoadProbe}
    (h : ProcLoadProbe.new host = .ok probe) : probe.numCpus ≠ 0 := by
  unfold ProcLoadProbe.new at h
  obtain ⟨cpuinfo, -, h⟩ := Outcome.bind_eq_ok.mp h
  cases h
  exact (Nat.lt_of_lt_of_le Nat.zero_lt_one (Nat.le_max_right _ _)).ne'

/-- **The probes keep the contract of `LoadProbe`**: whatever the system answers, each load that
they return lies in `[0.0, 1.0]`, unless the text of the load average is NaN. -/
theorem loadNormalized_mem :
    (∀ (times : Option SystemTimes) (probe : GetSystemTimesProbe) (load : Binary64),
      (probe.loadNormalized times).1 = .ok load → InUnit load) ∧
    ∀ (host : ProcHost) (probe : ProcLoadProbe) (loadavg : Except Error String) (load : Binary64),
      ProcLoadProbe.new host = .ok probe → probe.numCpus < 2 ^ 64 →
      probe.loadNormalized loadavg = .ok load → (InUnit load ↔ ¬ SaysNan loadavg) :=
  ⟨fun _ _ _ => GetSystemTimesProbe.inUnit_of_ok,
    fun _ _ _ _ hnew => ProcLoadProbe.inUnit_iff (ProcLoadProbe.numCpus_ne_zero hnew)⟩

def dualHost : ProcHost where
  readToString _ := .ok "processor\t: 0\nprocessor\t: 1\n"
  isFile _ := true
  openForWriting _ := .ok ()

/-- A load of one half on Windows, and a NaN on Linux. -/
theorem loadNormalized_mem_half : InUnit ⟨0x3fe0000000000000⟩ ∧ ¬ InUnit nan := by
  refine ⟨loadNormalized_mem.1 (some ⟨⟨50, 0⟩, ⟨60, 0⟩, ⟨40, 0⟩⟩) ⟨⟨0, 0⟩⟩ _
    (by decide +kernel), fun h => ?_⟩
  have hnan := (loadNormalized_mem.2 dualHost ⟨2⟩ (.ok "nan 0.0") nan rfl (by decide)
    (by decide +kernel)).mp h
  exact hnan ⟨"nan 0.0", "nan".toList, rfl, by decide, by decide⟩

/-! ## The text of `/proc/loadavg` -/

/-- What the kernel writes: the load average with two digits after the point, then the rest of
the line. -/
def showLoadavg (hundredths : Nat) (rest : List Char) : List Char :=
  Nat.toDigits 10 (hundredths / 100) ++
    '.' :: (hundredths / 10 % 10).digitChar :: (hundredths % 10).digitChar :: ' ' :: rest

theorem isDigit_digitChar {n : Nat} (h : n < 10) : n.digitChar.isDigit = true := by
  have hmem : n.digitChar ∈ Nat.toDigits 10 n := by
    rw [Nat.toDigits_of_lt_base h]
    exact List.mem_singleton_self _
  exact Nat.isDigit_of_mem_toDigits (by decide) (by decide) hmem

theorem not_isWhitespace_of_isDigit {c : Char} (h : c.isDigit = true) : isWhitespace c = false := by
  unfold Char.isDigit at h
  simp only [ge_iff_le, Bool.and_eq_true, decide_eq_true_eq, UInt32.le_iff_toNat_le] at h
  have hlo : 48 ≤ c.toNat := h.1
  have hhi : c.toNat ≤ 57 := h.2
  unfold isWhitespace
  simp only [decide_eq_false_iff_not]
  omega

/-- The digits of the load average, around the point. -/
theorem ofDigitChars_loadavg (hundredths : Nat) : Nat.ofDigitChars 10
    (Nat.toDigits 10 (hundredths / 100) ++
      [(hundredths / 10 % 10).digitChar, (hundredths % 10).digitChar]) 0 = hundredths := by
  rw [Nat.ofDigitChars_append, Nat.ofDigitChars_ten_toDigits,
    Nat.ofDigitChars_cons_digitChar_of_lt_ten (Nat.mod_lt _ (by decide)),
    Nat.ofDigitChars_cons_digitChar_of_lt_ten (Nat.mod_lt _ (by decide)), Nat.ofDigitChars_nil]
  omega

theorem firstWord_showLoadavg (hundredths : Nat) (rest : List Char) :
    firstWord (showLoadavg hundredths rest) = some (Nat.toDigits 10 (hundredths / 100) ++
      '.' :: [(hundredths / 10 % 10).digitChar, (hundredths % 10).digitChar]) := by
  have hdigits : ∀ c ∈ Nat.toDigits 10 (hundredths / 100), isWhitespace c = false := fun c hc =>
    not_isWhitespace_of_isDigit (Nat.isDigit_of_mem_toDigits (by decide) (by decide) hc)
  have hdigit : ∀ n, n < 10 → isWhitespace n.digitChar = false := fun n hn =>
    not_isWhitespace_of_isDigit (isDigit_digitChar hn)
  have h1 := hdigit _ (Nat.mod_lt (hundredths / 10) (by decide : 0 < 10))
  have h2 := hdigit _ (Nat.mod_lt hundredths (by decide : 0 < 10))
  obtain ⟨c, cs, hcons⟩ : ∃ c cs, Nat.toDigits 10 (hundredths / 100) = c :: cs :=
    List.exists_cons_of_ne_nil Nat.toDigits_ne_nil
  have htake : (showLoadavg hundredths rest).takeWhile (fun c => !isWhitespace c) =
      Nat.toDigits 10 (hundredths / 100) ++
        '.' :: [(hundredths / 10 % 10).digitChar, (hundredths % 10).digitChar] := by
    unfold showLoadavg
    rw [List.takeWhile_append_of_pos (by simpa using hdigits)]
    simp [h1, h2, show isWhitespace '.' = false by decide,
      show isWhitespace ' ' = true by decide]
  have hdrop : (showLoadavg hundredths rest).dropWhile isWhitespace =
      showLoadavg hundredths rest := by
    unfold showLoadavg
    rw [hcons, List.cons_append, List.dropWhile_cons_of_neg]
    rw [hdigits c (hcons ▸ List.mem_cons_self)]
    exact Bool.false_ne_true
  unfold firstWord
  rw [hdrop, htake, hcons]
  rfl

/-- **The probe reads what the kernel wrote.** -/
theorem ProcLoadProbe.loadNormalized_showLoadavg (probe : ProcLoadProbe) (hundredths : Nat)
    (rest : List Char) :
    probe.loadNormalized (.ok (String.ofList (showLoadavg hundredths rest))) =
      .ok (averageLoad (Binary64.round false (hundredths / 100)) probe.numCpus) := by
  have hparse := FloatText.parse_point (Nat.toDigits 10 (hundredths / 100))
    [(hundredths / 10 % 10).digitChar, (hundredths % 10).digitChar]
    (fun c hc => Nat.isDigit_of_mem_toDigits (by decide) (by decide) hc) (by
      intro c hc
      rcases List.mem_pair.mp hc with rfl | rfl
      · exact isDigit_digitChar (Nat.mod_lt _ (by decide))
      · exact isDigit_digitChar (Nat.mod_lt _ (by decide))) Nat.toDigits_ne_nil
  rw [ofDigitChars_loadavg] at hparse
  have hscale : (hundredths : ℚ) / 10 ^ [(hundredths / 10 % 10).digitChar,
      (hundredths % 10).digitChar].length = hundredths / 100 := by norm_num
  rw [hscale] at hparse
  unfold ProcLoadProbe.loadNormalized
  show (match firstWord (String.ofList (showLoadavg hundredths rest)).toList with
    | none => _
    | some first => _) = _
  rw [String.toList_ofList, firstWord_showLoadavg]
  simp only [hparse]
  rfl

end HyperPod
