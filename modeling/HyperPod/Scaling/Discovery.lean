import HyperPod.Scaling.Sinks
import HyperPod.Lib.Text

/-!
# Finding the CPU share sink on Linux: `scaling/probes.rs`

`discover_cgroup_share_sink` looks up the process's cgroup in `/proc/self/cgroup` and puts
its path under `/sys/fs/cgroup`.  It trims the path as it takes it, so it finds the file of
the process's own cgroup unless the name of that cgroup ends in a blank
(`weightPath_iff`).
-/

namespace HyperPod

open Machine Text

/-- What the host answers while the probe and the sink are built. -/
structure ProcHost where
  readToString : String → Result String
  isFile : Path → Bool
  openForWriting : Path → Result Unit

/-- The number of CPUs by which a reading is divided. -/
structure ProcLoadProbe where
  numCpus : Nat

def ProcLoadProbe.new (host : ProcHost) : Result ProcLoadProbe := do
  let cpuinfo ← withContext "read /proc/cpuinfo" (host.readToString "/proc/cpuinfo")
  let n := ((lines cpuinfo.toList).filter "processor".toList.isPrefixOf).length
  return ⟨max n 1⟩

def CgroupShareSink.new (host : ProcHost) (path : Path) : Result CgroupShareSink := do
  bailIf (!host.isFile path) s!"cgroup file {path.display} does not exist"
  withContext s!"open {path.display} for writing" (host.openForWriting path)
  return ⟨path⟩

/-- The `cpu.weight` file that the lines of `/proc/self/cgroup` lead to. -/
def weightPath (raw : List Char) : Option (List Char) := do
  let line ← (lines raw).find? "0::".toList.isPrefixOf
  let rel := trim (String.ofList (stripPrefixes "0::".toList line.length line))
  let rel := rel.dropWhile (· = '/')
  return join (join "/sys/fs/cgroup".toList rel) "cpu.weight".toList

def discoverCgroupShareSink (host : ProcHost) : Result CgroupShareSink := do
  let raw ← withContext "read /proc/self/cgroup" (host.readToString "/proc/self/cgroup")
  match weightPath raw.toList with
  | none => .err (.msg
      "no cgroup-v2 line in /proc/self/cgroup; HyperPod requires cgroup v2 for CPU scaling")
  | some path => CgroupShareSink.new host ⟨String.ofList path, some "weight"⟩

/-! ## What the kernel writes -/

/-- The path of a cgroup by the names from the root down. -/
def cgroupPath (names : List (List Char)) : List Char :=
  if names = [] then ['/'] else names.flatMap ('/' :: ·)

/-- A name of a directory in the cgroup file system. -/
def IsCgroupName (name : List Char) : Prop := name ≠ [] ∧ '/' ∉ name ∧ '\n' ∉ name

/-- `/proc/self/cgroup`: the lines of the version 1 hierarchies, the line of version 2, and
what follows. -/
def showCgroups (hierarchies : List (List Char)) (names : List (List Char)) (rest : List Char) :
    List Char :=
  hierarchies.flatMap (· ++ ['\n']) ++ ("0::".toList ++ cgroupPath names ++ '\n' :: rest)

/-- The `cpu.weight` file of a cgroup. -/
def weightFile (names : List (List Char)) : List Char :=
  "/sys/fs/cgroup".toList ++ names.flatMap ('/' :: ·) ++ "/cpu.weight".toList

/-! ## Trimming -/

section
variable {l : List Char} {c : Char}

theorem trim_ofList (l : List Char) : trim (String.ofList l) =
    ((l.dropWhile isWhitespace).reverse.dropWhile isWhitespace).reverse := by
  unfold trim
  rw [String.toList_ofList]

theorem length_trim_le (l : List Char) : (trim (String.ofList l)).length ≤ l.length := by
  rw [trim_ofList, List.length_reverse]
  refine Nat.le_trans (List.length_dropWhile_le _ _) ?_
  rw [List.length_reverse]
  exact List.length_dropWhile_le _ _

theorem trim_eq_self (hhead : ∀ c, l.head? = some c → isWhitespace c = false)
    (hlast : ∀ c, l.getLast? = some c → isWhitespace c = false) :
    trim (String.ofList l) = l := by
  have hkeep : ∀ k : List Char, (∀ c, k.head? = some c → isWhitespace c = false) →
      k.dropWhile isWhitespace = k := by
    intro k hk
    cases k with
    | nil => rfl
    | cons c k =>
      refine List.dropWhile_cons_of_neg ?_
      rw [hk c rfl]
      exact Bool.false_ne_true
  have hrev : ∀ c, l.reverse.head? = some c → isWhitespace c = false := by
    intro c hc
    rw [List.head?_reverse] at hc
    exact hlast c hc
  rw [trim_ofList, hkeep l hhead, hkeep l.reverse hrev, List.reverse_reverse]

/-- Trimming cuts only the end of a text that starts with no blank. -/
theorem trim_isPrefix_cons (hc : isWhitespace c = false) :
    trim (String.ofList (c :: l)) <+: c :: l := by
  have hne : ¬ isWhitespace c = true := by
    rw [hc]
    exact Bool.false_ne_true
  rw [trim_ofList, List.dropWhile_cons_of_neg hne]
  have hsuffix := List.dropWhile_suffix (l := (c :: l).reverse) isWhitespace
  rwa [← List.reverse_prefix, List.reverse_reverse] at hsuffix

theorem length_trim_lt (hlast : l.getLast? = some c) (hc : isWhitespace c = true) :
    (trim (String.ofList l)).length < l.length := by
  obtain ⟨k, rfl⟩ : ∃ k, l = k ++ [c] := List.getLast?_eq_some_iff.mp hlast
  have hle : ((k ++ [c]).dropWhile isWhitespace).length ≤ (k ++ [c]).length :=
    List.length_dropWhile_le _ _
  rw [trim_ofList, List.length_reverse]
  rw [List.dropWhile_append] at hle ⊢
  split
  · rw [List.dropWhile_cons_of_pos hc, List.dropWhile_nil]
    simp
  · next hne =>
    rw [if_neg hne, List.length_append] at hle
    rw [List.reverse_append, List.reverse_singleton, List.singleton_append,
      List.dropWhile_cons_of_pos hc]
    refine Nat.lt_of_le_of_lt (List.length_dropWhile_le _ _) ?_
    rw [List.length_reverse, List.length_append]
    simp at hle ⊢
    omega

/-- A blank at the end of a line goes with the carriage return or with the trimming. -/
theorem length_trim_chomp_lt (hlast : l.getLast? = some c) (hc : isWhitespace c = true) :
    (trim (String.ofList (chomp l))).length < l.length := by
  by_cases hcr : c = '\r'
  · subst hcr
    have hne : l ≠ [] := by
      rintro rfl
      cases hlast
    have hpos := List.length_pos_iff.mpr hne
    refine Nat.lt_of_le_of_lt (length_trim_le _) ?_
    unfold chomp
    rw [if_pos hlast, List.length_dropLast]
    omega
  · rw [chomp_of_getLast? hlast hcr]
    exact length_trim_lt hlast hc

end

/-! ## The path that is found -/

section
variable {hierarchies names : List (List Char)} {rest : List Char}

/-- The path of a cgroup starts with one separator. -/
theorem cgroupPath_eq_cons (hn : ∀ n ∈ names, IsCgroupName n) :
    ∃ q, cgroupPath names = '/' :: q ∧ q.head? ≠ some '/' ∧ '\n' ∉ q := by
  cases names with
  | nil => exact ⟨[], rfl, by simp, by simp⟩
  | cons name names =>
    obtain ⟨⟨hne, hsep, hnl⟩, hn⟩ := List.forall_mem_cons.mp hn
    refine ⟨name ++ names.flatMap ('/' :: ·), rfl, ?_, ?_⟩
    · obtain ⟨c, cs, rfl⟩ := List.exists_cons_of_ne_nil hne
      intro heq
      cases heq
      exact hsep List.mem_cons_self
    · rw [List.mem_append, List.mem_flatMap, not_or]
      refine ⟨hnl, ?_⟩
      rintro ⟨n, hmem, hin⟩
      rcases List.mem_cons.mp hin with heq | hin
      · cases heq
      · exact (hn n hmem).2.2 hin

theorem weightPath_showCgroups (hh : ∀ l ∈ hierarchies, '\n' ∉ l ∧ ¬ "0::".toList <+: l)
    (hn : ∀ n ∈ names, IsCgroupName n) : weightPath (showCgroups hierarchies names rest) =
      some (join (join "/sys/fs/cgroup".toList
        ((trim (String.ofList (chomp (cgroupPath names)))).dropWhile (· = '/')))
          "cpu.weight".toList) := by
  obtain ⟨q, hq, -, hnl⟩ := cgroupPath_eq_cons hn
  have hline : '\n' ∉ "0::".toList ++ cgroupPath names := by
    rw [hq, List.mem_append, not_or]
    exact ⟨by decide, by simpa using hnl⟩
  have hchomp :
      chomp ("0::".toList ++ cgroupPath names) = "0::".toList ++ chomp (cgroupPath names) :=
    chomp_append _ (by rw [hq]; simp)
  have hstart : "0::".toList <+: chomp ("0::".toList ++ cgroupPath names) := by
    rw [hchomp]
    exact List.prefix_append _ _
  have hstrip : ¬ "0::".toList <+: chomp (cgroupPath names) := by
    intro hp
    have hp := hp.trans (chomp_isPrefix_self _)
    rw [hq] at hp
    exact absurd (List.cons_prefix_cons.mp hp).1 (by decide)
  unfold weightPath showCgroups
  rw [find?_lines hh hline hstart]
  show some _ = some _
  rw [hchomp, stripPrefixes_append (by simp) hstrip]

variable {name : List Char} {c : Char}

theorem cgroupPath_of_getLast? (hname : names.getLast? = some name) :
    cgroupPath names = names.flatMap ('/' :: ·) := by
  refine if_neg ?_
  rintro rfl
  cases hname

theorem getLast?_cgroupPath (hname : names.getLast? = some name) (hlast : name.getLast? = some c) :
    (cgroupPath names).getLast? = some c := by
  rw [cgroupPath_of_getLast? hname]
  obtain ⟨init, rfl⟩ := List.getLast?_eq_some_iff.mp hname
  obtain ⟨cs, rfl⟩ := List.getLast?_eq_some_iff.mp hlast
  rw [List.flatMap_append, List.flatMap_singleton, ← List.cons_append, ← List.append_assoc,
    List.getLast?_concat]

theorem weightPath_of_kept (hh : ∀ l ∈ hierarchies, '\n' ∉ l ∧ ¬ "0::".toList <+: l)
    (hn : ∀ n ∈ names, IsCgroupName n) (hname : names.getLast? = some name)
    (hlast : name.getLast? = some c) (hc : isWhitespace c = false) :
    weightPath (showCgroups hierarchies names rest) = some (weightFile names) := by
  obtain ⟨q, hq, hhead, -⟩ := cgroupPath_eq_cons hn
  have hend := getLast?_cgroupPath hname hlast
  have hsep : c ≠ '/' := by
    rintro rfl
    exact (hn name (List.mem_of_getLast? hname)).2.1 (List.mem_of_getLast? hlast)
  have hcr : c ≠ '\r' := by
    rintro rfl
    cases hc
  have htrim : trim (String.ofList (cgroupPath names)) = '/' :: q := by
    rw [← hq]
    refine trim_eq_self ?_ ?_
    · intro x hx
      rw [hq] at hx
      cases hx
      rfl
    · intro x hx
      rw [hend] at hx
      cases hx
      exact hc
  have hrel : ('/' :: q).dropWhile (· = '/') = q := by
    rw [List.dropWhile_cons_of_pos (by simp)]
    cases q with
    | nil => rfl
    | cons x q => exact List.dropWhile_cons_of_neg (by simpa using hhead)
  have hdir : join "/sys/fs/cgroup".toList q = "/sys/fs/cgroup".toList ++ cgroupPath names := by
    rw [hq]
    exact join_of_getLast? hhead rfl (by decide)
  have hdirEnd : ("/sys/fs/cgroup".toList ++ cgroupPath names).getLast? = some c := by
    rw [List.getLast?_append_of_ne_nil _ (by rw [hq]; simp), hend]
  rw [weightPath_showCgroups hh hn, chomp_of_getLast? hend hcr, htrim, hrel, hdir,
    join_of_getLast? (by decide) hdirEnd hsep, cgroupPath_of_getLast? hname]
  rfl

/-- What is cut off a name makes the path too short. -/
theorem weightPath_of_cut (hh : ∀ l ∈ hierarchies, '\n' ∉ l ∧ ¬ "0::".toList <+: l)
    (hn : ∀ n ∈ names, IsCgroupName n) (hname : names.getLast? = some name)
    (hlast : name.getLast? = some c) (hc : isWhitespace c = true) :
    weightPath (showCgroups hierarchies names rest) ≠ some (weightFile names) := by
  obtain ⟨q, hq, -, -⟩ := cgroupPath_eq_cons hn
  have hend := getLast?_cgroupPath hname hlast
  have hlt := length_trim_chomp_lt hend hc
  have hprefix : trim (String.ofList (chomp (cgroupPath names))) <+: '/' :: q := by
    have hchomp := chomp_isPrefix_self (cgroupPath names)
    rw [hq] at hchomp ⊢
    rcases hcut : chomp ('/' :: q) with _ | ⟨x, k⟩
    · exact List.nil_prefix
    · rw [hcut] at hchomp
      obtain ⟨rfl, -⟩ := List.cons_prefix_cons.mp hchomp
      exact (trim_isPrefix_cons rfl).trans hchomp
  have hrel : ((trim (String.ofList (chomp (cgroupPath names)))).dropWhile (· = '/')).length <
      q.length := by
    rw [hq, List.length_cons] at hlt
    rcases ht : trim (String.ofList (chomp (cgroupPath names))) with _ | ⟨x, t⟩
    · rw [hq] at hend
      cases q with
      | nil =>
        cases hend
        cases hc
      | cons x q => simp
    · rw [ht] at hprefix
      rw [← hq, ht, List.length_cons] at hlt
      obtain ⟨rfl, -⟩ := List.cons_prefix_cons.mp hprefix
      rw [List.dropWhile_cons_of_pos (by simp)]
      have hle := List.length_dropWhile_le (· = '/') t
      omega
  rw [weightPath_showCgroups hh hn]
  intro heq
  have hlen := congrArg List.length (Option.some.inj heq)
  have hfile : (weightFile names).length = 14 + (q.length + 1) + 11 := by
    unfold weightFile
    rw [← cgroupPath_of_getLast? hname, hq, List.length_append, List.length_append,
      List.length_cons]
    rfl
  have hdir := length_join_le "/sys/fs/cgroup".toList
    ((trim (String.ofList (chomp (cgroupPath names)))).dropWhile (· = '/'))
  have hjoin := length_join_le (join "/sys/fs/cgroup".toList
    ((trim (String.ofList (chomp (cgroupPath names)))).dropWhile (· = '/'))) "cpu.weight".toList
  have hbase : "/sys/fs/cgroup".toList.length = 14 := by decide
  have hleaf : "cpu.weight".toList.length = 10 := by decide
  omega

end

/-- **The file that is found** is the one of the process's own cgroup, whatever other
hierarchies there are, exactly when the name of that cgroup does not end in a blank. -/
theorem weightPath_iff (hierarchies names : List (List Char)) (rest : List Char)
    (hh : ∀ l ∈ hierarchies, '\n' ∉ l ∧ ¬ "0::".toList <+: l)
    (hn : ∀ n ∈ names, IsCgroupName n) :
    weightPath (showCgroups hierarchies names rest) = some (weightFile names) ↔
      ∀ name c, names.getLast? = some name → name.getLast? = some c → isWhitespace c = false := by
  constructor
  · intro h name c hname hlast
    rcases hc : isWhitespace c with _ | _
    · rfl
    · exact absurd h (weightPath_of_cut hh hn hname hlast hc)
  · intro h
    rcases hname : names.getLast? with _ | name
    · rw [List.getLast?_eq_none_iff] at hname
      subst hname
      rw [weightPath_showCgroups hh hn]
      decide
    · have hne : name ≠ [] := (hn name (List.mem_of_getLast? hname)).1
      have hlast : name.getLast? = some (name.getLast hne) := List.getLast?_eq_some_getLast hne
      exact weightPath_of_kept hh hn hname hlast (h name _ hname hlast)

/-- A service on a host with both versions mounted. -/
theorem weightPath_iff_service :
    weightPath (showCgroups ["1:name=systemd:/".toList] ["vm.slice".toList, "pod 1".toList] []) =
      some "/sys/fs/cgroup/vm.slice/pod 1/cpu.weight".toList := by
  refine (weightPath_iff _ _ _ (by decide) (by unfold IsCgroupName; decide)).mpr ?_
  rintro name c ⟨⟩ ⟨⟩
  rfl

end HyperPod
