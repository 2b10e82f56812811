import HyperPod.Elf

/-!
# When the kernel loader returns, fails and panics

Past the ELF header the loader goes through the program headers in order.  A header
*passes* when it ends in the file, its file range does, and its image fits RAM
(`HeaderPasses`); the loop stops with an error at the first one that does not.  Two checks
come too late: the end of a header is summed before it is compared, and the zero fill is
allocated before it is known to fit (`HostileAt`).  A file is loaded without a panic or an
oversized allocation exactly when no header that the loop reaches is one of these
(`total_iff_not_hostile`).
-/

namespace HyperPod

open Machine Bytes GuestRam HostFile

namespace Elf

/-! ## What the checks ask of a file -/

/-- The segment's file range lies in the file. -/
def Segment.InFile (s : Segment) (bytes : List UInt8) : Prop := s.offset + s.filesz ≤ bytes.length

/-- The segment's image ends inside RAM. -/
def Segment.InRam (s : Segment) (ramSize : Nat) : Prop := s.paddr + max s.filesz s.memsz ≤ ramSize

instance (s : Segment) (bytes : List UInt8) : Decidable (s.InFile bytes) :=
  inferInstanceAs (Decidable (_ ≤ _))

instance (s : Segment) (ramSize : Nat) : Decidable (s.InRam ramSize) :=
  inferInstanceAs (Decidable (_ ≤ _))

/-- The loop goes on after header `i`. -/
def HeaderPasses (bytes : List UInt8) (ramSize i : Nat) : Prop :=
  headerOff bytes i + phentsize bytes ≤ bytes.length ∧
    ∀ s, segmentAt bytes (headerOff bytes i) = some s → s.InFile bytes ∧ s.InRam ramSize

/-- The end of header `i` is past `2 ^ 64`, though its offset is not. -/
def EndWraps (bytes : List UInt8) (i : Nat) : Prop :=
  headerOff bytes i < 2 ^ 64 ∧ 2 ^ 64 ≤ headerOff bytes i + phentsize bytes

/-- Header `i` asks for a zero fill larger than RAM, behind file bytes that fit. -/
def FillExceeds (bytes : List UInt8) (ramSize i : Nat) : Prop :=
  headerOff bytes i + phentsize bytes ≤ bytes.length ∧
    ∃ s, segmentAt bytes (headerOff bytes i) = some s ∧ s.InFile bytes ∧
      s.paddr + s.filesz ≤ ramSize ∧ ramSize < s.memsz - s.filesz

def HostileAt (bytes : List UInt8) (ramSize i : Nat) : Prop :=
  EndWraps bytes i ∨ FillExceeds bytes ramSize i

/-- The loop reaches a header that one of the late checks meets. -/
def Hostile (bytes : List UInt8) (ramSize : Nat) : Prop :=
  HeaderOk bytes ∧ ∃ i < phnum bytes,
    (∀ j < i, HeaderPasses bytes ramSize j) ∧ HostileAt bytes ramSize i

instance (bytes : List UInt8) (ramSize i : Nat) : Decidable (HeaderPasses bytes ramSize i) :=
  inferInstanceAs (Decidable (_ ∧ ∀ s, s ∈ segmentAt bytes (headerOff bytes i) → _))

instance (bytes : List UInt8) (ramSize i : Nat) : Decidable (FillExceeds bytes ramSize i) :=
  inferInstanceAs (Decidable (_ ∧ ∃ s, s ∈ segmentAt bytes (headerOff bytes i) ∧ _))

instance (bytes : List UInt8) (ramSize i : Nat) : Decidable (HostileAt bytes ramSize i) :=
  inferInstanceAs (Decidable ((_ ∧ _) ∨ _))

instance (bytes : List UInt8) (ramSize : Nat) : Decidable (Hostile bytes ramSize) :=
  inferInstanceAs (Decidable (_ ∧ ∃ i, i < phnum bytes ∧ _))

/-- The host hands out zeroed buffers of up to `n` bytes. -/
def Serves (alloc : Nat → Result (List UInt8)) (n : Nat) : Prop :=
  ∀ k ≤ n, alloc k = .ok (List.replicate k 0)

/-- Loading neither panics nor asks for a buffer larger than RAM. -/
def Total (file : Content) (ramSize : Nat) : Prop :=
  ∀ (p : Profile) (alloc : Nat → Result (List UInt8)) (path : String) (ram : GuestRam),
    ram.size = ramSize → Serves alloc ramSize →
      ((loadWith alloc p path (.ok file)).run ram).1 ≠ .panic

variable {alloc : Nat → Result (List UInt8)} {p : Profile} {bytes : List UInt8} {off lo i : Nat}

/-! ## One segment -/

section
variable {s : Segment} {ram : GuestRam}

theorem fits_writes_iff (hfile : s.InFile bytes) :
    ram.Fits (s.writes bytes) ↔ s.InRam ram.size := by
  unfold Segment.InRam Segment.writes
  by_cases hbss : s.memsz > s.filesz
  · rw [if_pos hbss, Nat.max_eq_right (Nat.le_of_lt hbss)]
    unfold GuestRam.Fits
    rw [List.forall_mem_cons, List.forall_mem_singleton, length_slice hfile,
      List.length_replicate]
    constructor
    · rintro ⟨-, hin⟩
      omega
    · intro hin
      exact ⟨by omega, by omega⟩
  · rw [if_neg hbss, Nat.max_eq_left (Nat.le_of_not_lt hbss)]
    unfold GuestRam.Fits
    rw [List.forall_mem_singleton, length_slice hfile]

/-- The segment past the check of its file range. -/
theorem run_loadSegmentWith_inFile (hlen : bytes.length < 2 ^ 63) (hfile : s.InFile bytes) :
    (loadSegmentWith alloc p bytes i s).run ram =
      (do
        writeSlice s.paddr (slice bytes s.offset s.filesz)
        if s.memsz > s.filesz then
          let zeros ← Act.lift (alloc (s.memsz - s.filesz))
          let start ← Act.lift (fit p 64 (s.paddr + s.filesz))
          writeSlice start zeros : Act GuestRam Unit).run ram := by
  have hrange : ¬ (s.offset + s.filesz ≥ 2 ^ 64 ∨ s.offset + s.filesz > bytes.length) := by
    unfold Segment.InFile at hfile
    omega
  have himage : sliceRange bytes s.offset (s.offset + s.filesz) =
      .ok (slice bytes s.offset s.filesz) :=
    sliceRange_eq_ok.mpr ⟨by omega, hfile, by rw [Nat.add_sub_cancel_left]⟩
  unfold loadSegmentWith
  simp only [if_neg hrange, himage, Act.run_lift_ok_bind]

/-- A segment that fits is loaded, if the host has its zero fill. -/
theorem run_loadSegmentWith_passes (hlen : bytes.length < 2 ^ 63) (hfile : s.InFile bytes)
    (hram : s.InRam ram.size)
    (hzeros : alloc (s.memsz - s.filesz) = .ok (List.replicate (s.memsz - s.filesz) 0)) :
    (loadSegmentWith alloc p bytes i s).run ram = (.ok (), ram.puts (s.writes bytes)) := by
  have hfits := (fits_writes_iff hfile).mpr hram
  have hsize := ram.size_lt
  have hin := hfits _ List.mem_cons_self
  rw [run_loadSegmentWith_inFile hlen hfile, Act.run_bind_ok (run_writeSlice_inside hin)]
  unfold Segment.InRam at hram
  unfold Segment.writes at hfits ⊢
  by_cases hbss : s.memsz > s.filesz
  · rw [if_pos hbss] at hfits ⊢
    have hin' := hfits _ (List.mem_cons_of_mem _ List.mem_cons_self)
    rw [if_pos hbss, hzeros, Act.run_lift_ok_bind, fit_eq_ok (by omega), Act.run_lift_ok_bind]
    exact run_writeSlice_inside hin'
  · rw [if_neg hbss, if_neg hbss]
    rfl

/-- An image that leaves RAM, though its file bytes do not, has a zero fill. -/
theorem fill_of_not_inRam {n : Nat} (hin : s.paddr + s.filesz ≤ n) (hram : ¬ s.InRam n) :
    s.memsz > s.filesz ∧ n < s.paddr + s.memsz := by
  unfold Segment.InRam at hram
  omega

/-- A segment that does not fit is refused, unless its zero fill is larger than RAM. -/
theorem run_loadSegmentWith_refused (hlen : bytes.length < 2 ^ 63) (hserves : Serves alloc ram.size)
    (hbad : ¬ (s.InFile bytes ∧ s.InRam ram.size))
    (hfill : ¬ (s.InFile bytes ∧ s.paddr + s.filesz ≤ ram.size ∧ ram.size < s.memsz - s.filesz)) :
    ∃ e ram', (loadSegmentWith alloc p bytes i s).run ram = (.err e, ram') := by
  have hsize := ram.size_lt
  by_cases hfile : s.InFile bytes
  · rw [run_loadSegmentWith_inFile hlen hfile]
    have himage : (slice bytes s.offset s.filesz).length = s.filesz := length_slice hfile
    by_cases hin : s.paddr + s.filesz ≤ ram.size
    · obtain ⟨hbss, hover⟩ := fill_of_not_inRam hin fun hram => hbad ⟨hfile, hram⟩
      have hsmall : s.memsz - s.filesz ≤ ram.size :=
        Nat.le_of_not_lt fun hlt => hfill ⟨hfile, hin, hlt⟩
      have hout : ¬ s.paddr + s.filesz +
          (List.replicate (s.memsz - s.filesz) (0 : UInt8)).length ≤
            (ram.put s.paddr (slice bytes s.offset s.filesz)).size := by
        rw [List.length_replicate, size_put]
        omega
      obtain ⟨e, he⟩ := run_writeSlice_outside hout
      rw [Act.run_bind_ok (run_writeSlice_inside (by rw [himage]; exact hin)), if_pos hbss,
        hserves _ hsmall, Act.run_lift_ok_bind, fit_eq_ok (by omega), Act.run_lift_ok_bind]
      exact ⟨e, _, he⟩
    · have houtside : ∃ e, (writeSlice s.paddr (slice bytes s.offset s.filesz)).run ram =
          (.err e, ram) := run_writeSlice_outside (by rw [himage]; exact hin)
      obtain ⟨e, he⟩ := houtside
      refine ⟨e, ram, ?_⟩
      rw [Act.run_bind, he]
  · have hrange : s.offset + s.filesz ≥ 2 ^ 64 ∨ s.offset + s.filesz > bytes.length :=
      Or.inr (Nat.lt_of_not_le hfile)
    unfold loadSegmentWith
    rw [if_pos hrange]
    exact ⟨_, ram, rfl⟩

/-- A zero fill that the host does not have is asked for before it is checked. -/
theorem run_loadSegmentWith_panic (hlen : bytes.length < 2 ^ 63) (hfile : s.InFile bytes)
    (hin : s.paddr + s.filesz ≤ ram.size) (hbss : s.memsz > s.filesz)
    (hpanic : alloc (s.memsz - s.filesz) = .panic) :
    ∃ ram', (loadSegmentWith alloc p bytes i s).run ram = (.panic, ram') := by
  have himage : (slice bytes s.offset s.filesz).length = s.filesz := length_slice hfile
  rw [run_loadSegmentWith_inFile hlen hfile,
    Act.run_bind_ok (run_writeSlice_inside (by rw [himage]; exact hin)), if_pos hbss, hpanic]
  exact ⟨_, rfl⟩

end

/-! ## One header -/

/-- The loop over the file's own header table. -/
abbrev headersFrom (alloc : Nat → Result (List UInt8)) (p : Profile) (bytes : List UInt8)
    (left i : Nat) (loadedAny : Bool) : Act GuestRam Bool :=
  loadHeadersWith alloc p bytes (phoff bytes) (phentsize bytes) left i loadedAny

section
variable (p : Profile) (left : Nat) (loadedAny : Bool) {ram : GuestRam}

/-- A header that ends in the file is read. -/
theorem run_headersFrom_inside (hlen : bytes.length < 2 ^ 63) (hsize : 56 ≤ phentsize bytes)
    (hin : headerOff bytes i + phentsize bytes ≤ bytes.length) :
    (headersFrom alloc p bytes (left + 1) i loadedAny).run ram =
      match segmentAt bytes (headerOff bytes i) with
      | none => (headersFrom alloc p bytes left (i + 1) loadedAny).run ram
      | some s =>
        (loadSegmentWith alloc p bytes i s >>= fun _ =>
          headersFrom alloc p bytes left (i + 1) true).run ram := by
  have hoff : ¬ phoff bytes + i * phentsize bytes ≥ 2 ^ 64 := by
    unfold headerOff at hin
    omega
  have hstop : ¬ phoff bytes + i * phentsize bytes + phentsize bytes > bytes.length :=
    Nat.not_lt.mpr hin
  have hread : readHeader p bytes (phoff bytes + i * phentsize bytes) =
      .ok (segmentAt bytes (headerOff bytes i)) :=
    readHeader_inside hlen (by unfold headerOff at hin; omega)
  unfold headersFrom
  rw [loadHeadersWith]
  simp only [if_neg hoff, fit_eq_ok (show phoff bytes + i * phentsize bytes + phentsize bytes <
    2 ^ 64 by omega), Act.run_lift_ok_bind, if_neg hstop, hread]
  cases segmentAt bytes (headerOff bytes i) with
  | none => rfl
  | some s => rfl

/-- A header that does not end in the file is refused, unless its end wraps. -/
theorem run_headersFrom_outside (alloc : Nat → Result (List UInt8)) (ram : GuestRam)
    (hout : ¬ headerOff bytes i + phentsize bytes ≤ bytes.length)
    (hwrap : ¬ EndWraps bytes i) :
    ∃ e, (headersFrom alloc p bytes (left + 1) i loadedAny).run ram = (.err e, ram) := by
  unfold EndWraps headerOff at hwrap
  unfold headerOff at hout
  unfold headersFrom
  rw [loadHeadersWith]
  by_cases hoff : phoff bytes + i * phentsize bytes ≥ 2 ^ 64
  · rw [if_pos hoff]
    exact ⟨_, rfl⟩
  · have hfit : phoff bytes + i * phentsize bytes + phentsize bytes < 2 ^ 64 := by omega
    have hstop : phoff bytes + i * phentsize bytes + phentsize bytes > bytes.length := by omega
    simp only [if_neg hoff, fit_eq_ok hfit, Act.run_lift_ok_bind, if_pos hstop]
    exact ⟨_, rfl⟩

/-- **The loop goes on** after a header that passes, with the header's segment loaded. -/
theorem run_headersFrom_passes (hlen : bytes.length < 2 ^ 63) (hsize : 56 ≤ phentsize bytes)
    (hpass : HeaderPasses bytes ram.size i)
    (hzeros : ∀ s, segmentAt bytes (headerOff bytes i) = some s →
      alloc (s.memsz - s.filesz) = .ok (List.replicate (s.memsz - s.filesz) 0)) :
    ∃ ram', ram'.size = ram.size ∧
      (headersFrom alloc p bytes (left + 1) i loadedAny).run ram =
        (headersFrom alloc p bytes left (i + 1)
          (loadedAny || (segmentAt bytes (headerOff bytes i)).isSome)).run ram' := by
  rw [run_headersFrom_inside p left loadedAny hlen hsize hpass.1]
  cases hs : segmentAt bytes (headerOff bytes i) with
  | none => exact ⟨ram, rfl, by rw [Option.isSome_none, Bool.or_false]⟩
  | some s =>
    obtain ⟨hfile, hram⟩ := hpass.2 s hs
    have hload := run_loadSegmentWith_passes (p := p) (i := i) hlen hfile hram (hzeros s hs)
    refine ⟨ram.puts (s.writes bytes), rfl, ?_⟩
    rw [Option.isSome_some, Bool.or_true]
    exact Act.run_bind_ok hload

/-- The zero fill of a header that passes is no larger than RAM. -/
theorem zeros_of_passes (hserves : Serves alloc ram.size) (hpass : HeaderPasses bytes ram.size i) :
    ∀ s, segmentAt bytes (headerOff bytes i) = some s →
      alloc (s.memsz - s.filesz) = .ok (List.replicate (s.memsz - s.filesz) 0) := by
  intro s hs
  have hram := (hpass.2 s hs).2
  unfold Segment.InRam at hram
  exact hserves _ (by omega)

/-- **The loop stops** with an error at a header that neither passes nor is hostile. -/
theorem run_headersFrom_refused (hlen : bytes.length < 2 ^ 63) (hsize : 56 ≤ phentsize bytes)
    (hserves : Serves alloc ram.size) (hbad : ¬ HeaderPasses bytes ram.size i)
    (hhostile : ¬ HostileAt bytes ram.size i) :
    ∃ e ram', (headersFrom alloc p bytes (left + 1) i loadedAny).run ram = (.err e, ram') := by
  obtain ⟨hwrap, hfill⟩ := not_or.mp hhostile
  by_cases hin : headerOff bytes i + phentsize bytes ≤ bytes.length
  · rw [run_headersFrom_inside p left loadedAny hlen hsize hin]
    cases hs : segmentAt bytes (headerOff bytes i) with
    | none =>
      refine absurd ⟨hin, ?_⟩ hbad
      intro s hs'
      rw [hs] at hs'
      cases hs'
    | some s =>
      have hnot : ¬ (s.InFile bytes ∧ s.InRam ram.size) := by
        intro hok
        refine hbad ⟨hin, ?_⟩
        intro s' hs'
        rw [hs] at hs'
        cases hs'
        exact hok
      obtain ⟨e, ram', he⟩ := run_loadSegmentWith_refused (p := p) (i := i) hlen hserves hnot
        fun hf => hfill ⟨hin, s, hs, hf⟩
      refine ⟨e, ram', ?_⟩
      show (loadSegmentWith alloc p bytes i s >>= _).run ram = _
      rw [Act.run_bind, he]
  · obtain ⟨e, he⟩ := run_headersFrom_outside p left loadedAny alloc ram hin hwrap
    exact ⟨e, ram, he⟩

/-- **A hostile header** panics in a debug build on a host that has no more than the RAM. -/
theorem run_headersFrom_hostile (hlen : bytes.length < 2 ^ 63) (hsize : 56 ≤ phentsize bytes)
    (hpicky : ∀ k, ram.size < k → alloc k = .panic) (h : HostileAt bytes ram.size i) :
    ∃ ram', (headersFrom alloc .debug bytes (left + 1) i loadedAny).run ram = (.panic, ram') := by
  rcases h with ⟨hoff, hwrap⟩ | ⟨hin, s, hs, hfile, hram, hfill⟩
  · unfold headerOff at hoff hwrap
    refine ⟨ram, ?_⟩
    unfold headersFrom
    rw [loadHeadersWith]
    simp only [if_neg (Nat.not_le.mpr hoff), fit_debug_eq_panic hwrap]
    rfl
  · obtain ⟨ram', hpanic⟩ := run_loadSegmentWith_panic (p := .debug) (i := i) hlen hfile hram
      (by omega) (hpicky _ hfill)
    refine ⟨ram', ?_⟩
    rw [run_headersFrom_inside .debug left loadedAny hlen hsize hin, hs]
    show (loadSegmentWith alloc .debug bytes i s >>= _).run ram = _
    rw [Act.run_bind, hpanic]

end

/-! ## The loop -/

/-- No hostile header is reached, so the loop does not panic. -/
theorem headersFrom_ne_panic (p : Profile) (loadedAny : Bool) (hlen : bytes.length < 2 ^ 63)
    (hsize : 56 ≤ phentsize bytes) {left : Nat} {ram : GuestRam} (hserves : Serves alloc ram.size)
    (hsafe : ∀ m, i ≤ m → m < i + left →
      (∀ j, i ≤ j → j < m → HeaderPasses bytes ram.size j) → ¬ HostileAt bytes ram.size m) :
    ((headersFrom alloc p bytes left i loadedAny).run ram).1 ≠ .panic := by
  induction left generalizing i loadedAny ram with
  | zero =>
    intro h
    cases h
  | succ left ih =>
    have hhere : ¬ HostileAt bytes ram.size i :=
      hsafe i (Nat.le_refl i) (by omega) fun j h1 h2 => by omega
    by_cases hpass : HeaderPasses bytes ram.size i
    · obtain ⟨ram', hsame, hrun⟩ := run_headersFrom_passes p left loadedAny hlen hsize hpass
        (zeros_of_passes hserves hpass)
      rw [hrun]
      apply ih
      · rw [hsame]
        exact hserves
      · rw [hsame]
        intro m him hm hbefore
        apply hsafe m (by omega) (by omega)
        intro j hij hjm
        rcases Nat.eq_or_lt_of_le hij with rfl | hlt
        · exact hpass
        · exact hbefore j hlt hjm
    · obtain ⟨e, ram', he⟩ := run_headersFrom_refused p left loadedAny hlen hsize hserves
        hpass hhere
      rw [he]
      intro h
      cases h

/-- The loop over headers that all pass returns, with whether one was a PT_LOAD. -/
theorem run_headersFrom_of_passes (p : Profile) (loadedAny : Bool) (hlen : bytes.length < 2 ^ 63)
    (hsize : 56 ≤ phentsize bytes) {left : Nat} {ram : GuestRam} (hserves : Serves alloc ram.size)
    (hpass : ∀ j, i ≤ j → j < i + left → HeaderPasses bytes ram.size j) :
    ∃ ram', (headersFrom alloc p bytes left i loadedAny).run ram =
      (.ok (loadedAny || (List.range' i left).any fun j =>
        (segmentAt bytes (headerOff bytes j)).isSome), ram') := by
  induction left generalizing i loadedAny ram with
  | zero => exact ⟨ram, by rw [List.range'_zero, List.any_nil, Bool.or_false]; rfl⟩
  | succ left ih =>
    have hhere := hpass i (Nat.le_refl i) (by omega)
    obtain ⟨ram', hsame, hrun⟩ := run_headersFrom_passes p left loadedAny hlen hsize
      hhere (zeros_of_passes hserves hhere)
    rw [hrun, List.range'_succ, List.any_cons, ← Bool.or_assoc]
    apply ih
    · rw [hsame]
      exact hserves
    · rw [hsame]
      exact fun j hij hj => hpass j (by omega) (by omega)

/-- A hostile header that is reached ends the loop with a panic. -/
theorem headersFrom_eq_panic (loadedAny : Bool) (hlen : bytes.length < 2 ^ 63)
    (hsize : 56 ≤ phentsize bytes) {left m : Nat} {ram : GuestRam} (hserves : Serves alloc ram.size)
    (hpicky : ∀ k, ram.size < k → alloc k = .panic) (him : i ≤ m) (hm : m < i + left)
    (hbefore : ∀ j, i ≤ j → j < m → HeaderPasses bytes ram.size j)
    (h : HostileAt bytes ram.size m) :
    ((headersFrom alloc .debug bytes left i loadedAny).run ram).1 = .panic := by
  induction left generalizing i loadedAny ram with
  | zero => omega
  | succ left ih =>
    rcases Nat.eq_or_lt_of_le him with rfl | hlt
    · obtain ⟨ram', hpanic⟩ := run_headersFrom_hostile left loadedAny hlen hsize hpicky h
      rw [hpanic]
    · have hpass := hbefore i (Nat.le_refl i) hlt
      obtain ⟨ram', hsame, hrun⟩ := run_headersFrom_passes .debug left loadedAny hlen hsize
        hpass (zeros_of_passes hserves hpass)
      rw [hrun]
      apply ih
      · rw [hsame]
        exact hserves
      · rw [hsame]
        exact hpicky
      · exact hlt
      · omega
      · rw [hsame]
        exact fun j hij hjm => hbefore j (by omega) hjm
      · rw [hsame]
        exact h

/-! ## The whole file -/

section
variable {file : Content} {path : String} {ram : GuestRam}

theorem loadWith_ne_panic (hserves : Serves alloc ram.size)
    (h : ¬ Hostile file.bytes ram.size) :
    ((loadWith alloc p path (.ok file)).run ram).1 ≠ .panic := by
  by_cases hok : HeaderOk file.bytes
  · have hsafe : ∀ m, 0 ≤ m → m < 0 + phnum file.bytes →
        (∀ j, 0 ≤ j → j < m → HeaderPasses file.bytes ram.size j) →
          ¬ HostileAt file.bytes ram.size m := by
      intro m _ hm hbefore hat
      exact h ⟨hok, m, by omega, fun j hj => hbefore j (Nat.zero_le j) hj, hat⟩
    have hloop := headersFrom_ne_panic p false file.len_lt hok.2.2.2.2.2
      hserves hsafe
    rw [run_loadWith_of_headerOk hok, Act.run_bind]
    rcases hrun : (headersFrom alloc p file.bytes (phnum file.bytes) 0 false).run ram with
      ⟨r, ram'⟩
    rw [hrun] at hloop
    cases r with
    | ok loadedAny =>
      intro hpanic
      cases loadedAny <;> cases hpanic
    | err e =>
      intro hpanic
      cases hpanic
    | panic => exact absurd rfl hloop
  · obtain ⟨e, he⟩ := run_loadWith_of_not_headerOk alloc p path ram hok
    rw [he]
    intro hpanic
    cases hpanic

/-- The host that has no buffer larger than RAM. -/
def picky (ramSize n : Nat) : Result (List UInt8) :=
  if n ≤ ramSize then .ok (List.replicate n 0) else .panic

theorem serves_picky (ramSize : Nat) : Serves (picky ramSize) ramSize := fun _ hk => if_pos hk

theorem not_total_of_hostile (ram : GuestRam) (h : Hostile file.bytes ram.size) :
    ¬ Total file ram.size := by
  obtain ⟨hok, m, hm, hbefore, hat⟩ := h
  have hpicky : ∀ k, ram.size < k → picky ram.size k = .panic :=
    fun _ hk => if_neg (Nat.not_le.mpr hk)
  have hm' : m < 0 + phnum file.bytes := by omega
  have hloop := headersFrom_eq_panic (i := 0) false file.len_lt hok.2.2.2.2.2
    (serves_picky ram.size) hpicky (Nat.zero_le m) hm' (fun j _ hj => hbefore j hj) hat
  intro htotal
  apply htotal .debug (picky ram.size) "vmlinux" ram rfl (serves_picky ram.size)
  rw [run_loadWith_of_headerOk hok, Act.run_bind]
  rcases hrun : (headersFrom (picky ram.size) .debug file.bytes (phnum file.bytes) 0 false).run
    ram with ⟨r, ram'⟩
  rw [hrun] at hloop
  subst hloop
  rfl

/-- A load returns when every header passes and one of them is a PT_LOAD. -/
theorem run_loadWith_of_passes (p : Profile) (path : String) (hserves : Serves alloc ram.size)
    (hok : HeaderOk file.bytes)
    (hpass : ∀ i < phnum file.bytes, HeaderPasses file.bytes ram.size i)
    (hany : ∃ i < phnum file.bytes, (segmentAt file.bytes (headerOff file.bytes i)).isSome) :
    ∃ ram', (loadWith alloc p path (.ok file)).run ram =
      (.ok ⟨valAt UInt64 file.bytes 24⟩, ram') := by
  have hpass' : ∀ j, 0 ≤ j → j < 0 + phnum file.bytes → HeaderPasses file.bytes ram.size j :=
    fun j _ hj => hpass j (by omega)
  obtain ⟨ram', hrun⟩ := run_headersFrom_of_passes p false file.len_lt
    hok.2.2.2.2.2 hserves hpass'
  obtain ⟨i, hi, hsome⟩ := hany
  have hflag : (List.range' 0 (phnum file.bytes)).any (fun j =>
      (segmentAt file.bytes (headerOff file.bytes j)).isSome) = true :=
    List.any_eq_true.mpr ⟨i, List.mem_range'_1.mpr ⟨Nat.zero_le i, by omega⟩, hsome⟩
  rw [hflag] at hrun
  exact ⟨ram', run_loadWith_eq_ok.mpr ⟨hok, hrun, rfl⟩⟩

/-- A load of a file with one header, a PT_LOAD that passes. -/
theorem run_loadWith_single (p : Profile) (path : String) {s : Segment}
    (hserves : Serves alloc ram.size)
    (hok : HeaderOk file.bytes) (hnum : phnum file.bytes = 1)
    (hin : headerOff file.bytes 0 + phentsize file.bytes ≤ file.bytes.length)
    (hs : segmentAt file.bytes (headerOff file.bytes 0) = some s) (hfile : s.InFile file.bytes)
    (hram : s.InRam ram.size) :
    ∃ ram', (loadWith alloc p path (.ok file)).run ram =
      (.ok ⟨valAt UInt64 file.bytes 24⟩, ram') := by
  apply run_loadWith_of_passes p path hserves hok
  · intro i hi
    rw [hnum, Nat.lt_one_iff] at hi
    subst hi
    refine ⟨hin, ?_⟩
    intro s' hs'
    rw [hs] at hs'
    cases hs'
    exact ⟨hfile, hram⟩
  · exact ⟨0, by rw [hnum]; decide, by rw [hs]; rfl⟩

/-- The host of `vec!` has every buffer of less than `2 ^ 63` bytes. -/
theorem serves_zeroed {n : Nat} (h : n < 2 ^ 63) : Serves zeroed n :=
  fun _ hk => if_pos (Nat.lt_of_le_of_lt hk h)

/-- **Total exactly on files that are not hostile.** -/
theorem total_iff_not_hostile (file : Content) (ram : GuestRam) :
    Total file ram.size ↔ ¬ Hostile file.bytes ram.size := by
  constructor
  · intro htotal hhostile
    exact not_total_of_hostile ram hhostile htotal
  · intro h p alloc path ram' hsize hserves
    rw [← hsize] at h hserves
    exact loadWith_ne_panic hserves h

end

/-- An ELF header for one program header at `phoff`. -/
def elfHeader (phoff : Nat) : List UInt8 :=
  elfMag ++ [2, 1, 1, 0] ++ leBytes 8 0 ++ leBytes 2 2 ++ leBytes 2 62 ++ leBytes 4 1 ++
    leBytes 8 0x100000 ++ leBytes 8 phoff ++ leBytes 8 0 ++ leBytes 4 0 ++ leBytes 2 64 ++
    leBytes 2 56 ++ leBytes 2 1 ++ leBytes 2 0 ++ leBytes 2 0 ++ leBytes 2 0

/-- The program header table starts in the last 16 bytes of the address space. -/
def farTable : Content := ⟨elfHeader (2 ^ 64 - 16), by decide⟩

/-- One segment without file bytes, to be filled with `2 ^ 64 - 1` zeros. -/
def hugeFill : Content :=
  ⟨elfHeader 64 ++ (leBytes 4 1 ++ leBytes 4 7 ++ leBytes 8 0 ++ leBytes 8 0 ++ leBytes 8 0 ++
    leBytes 8 0 ++ leBytes 8 (2 ^ 64 - 1) ++ leBytes 8 4096), by decide⟩

/-- Two files that pass every check of the ELF header and are not loaded totally. -/
theorem not_total : ¬ Total farTable (2 * mib) ∧ ¬ Total hugeFill (2 * mib) := by
  have hsize : 2 * mib < 2 ^ 64 := by decide
  have hfar : Hostile farTable.bytes (2 * mib) := by decide +kernel
  have hhuge : Hostile hugeFill.bytes (2 * mib) := by decide +kernel
  exact ⟨not_total_of_hostile ⟨2 * mib, fun _ => 0, hsize⟩ hfar,
    not_total_of_hostile ⟨2 * mib, fun _ => 0, hsize⟩ hhuge⟩

end Elf
end HyperPod
