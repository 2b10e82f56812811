import HyperPod.BootArtefacts

/-!
# What a load of the kernel leaves in RAM

`layHeaders` is the purpose of the loader: go through the header table in order and lay
each PT_LOAD image over the memory.  A load that returns has done exactly this, over
headers and file ranges inside the file and images inside RAM (`load_exact`).
-/

namespace HyperPod

open Machine Bytes GuestRam HostFile Boot

namespace Elf

/-! ## The memory the header table asks for -/

/-- The segment of program header `i`, if it is a PT_LOAD. -/
def headerSegment (bytes : List UInt8) (i : Nat) : Option Segment :=
  segmentAt bytes (headerOff bytes i)

/-- The address lies in the image of header `i`. -/
def HeaderCovers (bytes : List UInt8) (i a : Nat) : Prop :=
  ∃ s, headerSegment bytes i = some s ∧ s.Covers a

/-- The memory with the segment's image laid over it. -/
def Segment.lay (s : Segment) (bytes : List UInt8) (m : Nat → UInt8) : Nat → UInt8 :=
  fun a => if s.Covers a then s.byteAt bytes a else m a

/-- The memory with the image of header `i` laid over it; a header of another type has
none. -/
def layHeader (bytes : List UInt8) (m : Nat → UInt8) (i : Nat) : Nat → UInt8 :=
  match headerSegment bytes i with
  | none => m
  | some s => s.lay bytes m

/-- The memory with the images of the headers laid over it in the order given. -/
def layHeaders (bytes : List UInt8) (m : Nat → UInt8) (is : List Nat) : Nat → UInt8 :=
  is.foldl (layHeader bytes) m

section
variable {bytes : List UInt8} {m : Nat → UInt8} {i a : Nat} {s : Segment} {is : List Nat}

theorem layHeader_of_none (h : headerSegment bytes i = none) : layHeader bytes m i = m := by
  unfold layHeader
  rw [h]

theorem layHeader_of_some (h : headerSegment bytes i = some s) :
    layHeader bytes m i = s.lay bytes m := by
  unfold layHeader
  rw [h]

theorem layHeader_of_not_covers (h : ¬ HeaderCovers bytes i a) : layHeader bytes m i a = m a := by
  unfold layHeader
  cases hs : headerSegment bytes i with
  | none => rfl
  | some s => exact if_neg fun hc => h ⟨s, hs, hc⟩

theorem layHeader_of_covers (hs : headerSegment bytes i = some s) (hc : s.Covers a) :
    layHeader bytes m i a = s.byteAt bytes a := by
  unfold layHeader
  rw [hs]
  exact if_pos hc

theorem layHeaders_of_not_covers (h : ∀ j ∈ is, ¬ HeaderCovers bytes j a) :
    layHeaders bytes m is a = m a := by
  induction is generalizing m with
  | nil => rfl
  | cons i is ih =>
    rw [List.forall_mem_cons] at h
    show layHeaders bytes (layHeader bytes m i) is a = m a
    rw [ih h.2, layHeader_of_not_covers h.1]

/-- The last image that covers an address decides its byte. -/
theorem layHeaders_range_of_last {n : Nat} (hi : i < n) (hs : headerSegment bytes i = some s)
    (hc : s.Covers a) (hlast : ∀ j, i < j → j < n → ¬ HeaderCovers bytes j a) :
    layHeaders bytes m (List.range n) a = s.byteAt bytes a := by
  induction n with
  | zero => omega
  | succ n ih =>
    unfold layHeaders
    rw [List.range_succ, List.foldl_append]
    show layHeader bytes (layHeaders bytes m (List.range n)) n a = _
    rcases Nat.eq_or_lt_of_le (Nat.le_of_lt_succ hi) with rfl | hlt
    · exact layHeader_of_covers hs hc
    · rw [layHeader_of_not_covers (hlast n hlt (Nat.lt_succ_self n))]
      exact ih hlt fun j hij hjn => hlast j hij (Nat.lt_succ_of_lt hjn)

end

/-! ## The loop -/

section
variable {p : Profile} {bytes : List UInt8} {i : Nat}

theorem mem_writes {s : Segment} {ram : GuestRam} (hfile : s.InFile bytes) :
    (ram.puts (s.writes bytes)).mem = s.lay bytes ram.mem := by
  funext a
  rw [mem_puts]
  exact overlays_writes hfile ram.mem a

theorem headerPasses_of_none {ramSize : Nat}
    (hin : headerOff bytes i + phentsize bytes ≤ bytes.length)
    (hs : segmentAt bytes (headerOff bytes i) = none) : HeaderPasses bytes ramSize i := by
  refine ⟨hin, fun s hs' => ?_⟩
  rw [hs] at hs'
  cases hs'

theorem headerPasses_of_some {ramSize : Nat} {s : Segment}
    (hin : headerOff bytes i + phentsize bytes ≤ bytes.length)
    (hs : segmentAt bytes (headerOff bytes i) = some s)
    (hpass : s.InFile bytes ∧ s.InRam ramSize) : HeaderPasses bytes ramSize i := by
  refine ⟨hin, fun s' hs' => ?_⟩
  rw [hs] at hs'
  cases hs'
  exact hpass

/-- The headers from `i` on, as header `i` and those after it. -/
theorem forall_from_succ {P : Nat → Prop} {n : Nat} (hfirst : P i)
    (hrest : ∀ j, i + 1 ≤ j → j < i + 1 + n → P j) : ∀ j, i ≤ j → j < i + (n + 1) → P j := by
  intro j hij hj
  rcases Nat.eq_or_lt_of_le hij with rfl | hlt
  · exact hfirst
  · exact hrest j hlt (by omega)

/-- **What the loop leaves** when it returns. -/
theorem run_loadHeaders_exact {n : Nat} {loadedAny b : Bool} {ram ram' : GuestRam}
    (hlen : bytes.length < 2 ^ 63)
    (h : (loadHeaders p bytes (phoff bytes) (phentsize bytes) n i loadedAny).run ram =
      (.ok b, ram')) :
    ram'.size = ram.size ∧ ram'.mem = layHeaders bytes ram.mem (List.range' i n) ∧
      (∀ j, i ≤ j → j < i + n → HeaderPasses bytes ram.size j) ∧
      (b = true → loadedAny = true ∨ ∃ j < i + n, (headerSegment bytes j).isSome) := by
  induction n generalizing i loadedAny ram with
  | zero =>
    cases h
    exact ⟨rfl, rfl, fun j hij hj => by omega, Or.inl⟩
  | succ n ih =>
    obtain ⟨hin, hround⟩ := run_loadHeaders_succ_eq_ok hlen (phentsize_lt bytes) h
    have hi : i < i + (n + 1) := by omega
    rw [List.range'_succ]
    show _ ∧ ram'.mem = layHeaders bytes (layHeader bytes ram.mem i) (List.range' (i + 1) n) ∧ _
    rcases hround with ⟨hs, h⟩ | ⟨s, hs, hfile, hfits, h⟩
    · obtain ⟨hsize, hmem, hpass, hflag⟩ := ih h
      rw [layHeader_of_none hs]
      refine ⟨hsize, hmem, forall_from_succ (headerPasses_of_none hin hs) hpass, fun hb => ?_⟩
      rcases hflag hb with hany | ⟨j, hj, hsome⟩
      · exact Or.inl hany
      · exact Or.inr ⟨j, by omega, hsome⟩
    · obtain ⟨hsize, hmem, hpass, hflag⟩ := ih h
      rw [size_puts] at hsize hpass
      rw [mem_writes hfile] at hmem
      rw [layHeader_of_some hs]
      have hfirst := headerPasses_of_some hin hs ⟨hfile, (fits_writes_iff hfile).mp hfits⟩
      refine ⟨hsize, hmem, forall_from_succ hfirst hpass, fun _ => Or.inr ⟨i, hi, ?_⟩⟩
      rw [show headerSegment bytes i = some s from hs]
      rfl

end

/-! ## The load -/

/-- **Loading is exact.**  When a load returns, RAM is what the header table asks for:
every header, its file range and its image lie inside, one at least is a PT_LOAD, the last
image that covers an address decides its byte, and the other addresses are as they were. -/
theorem load_exact (p : Profile) (path : String) (file : Content) (kernel : LoadedKernel)
    (ram ram' : GuestRam) (h : (load p path (.ok file)).run ram = (.ok kernel, ram')) :
    kernel.entry = valAt UInt64 file.bytes 24 ∧ ram'.size = ram.size ∧
    ram'.mem = layHeaders file.bytes ram.mem (List.range (phnum file.bytes)) ∧
    (∀ i < phnum file.bytes, HeaderPasses file.bytes ram.size i) ∧
    (∃ i < phnum file.bytes, (headerSegment file.bytes i).isSome) ∧
    (∀ i s a, i < phnum file.bytes → headerSegment file.bytes i = some s → s.Covers a →
      (∀ j, i < j → j < phnum file.bytes → ¬ HeaderCovers file.bytes j a) →
        ram'.mem a = s.byteAt file.bytes a) ∧
    ∀ a, (∀ j < phnum file.bytes, ¬ HeaderCovers file.bytes j a) → ram'.mem a = ram.mem a := by
  obtain ⟨-, hloop, rfl⟩ := run_loadWith_eq_ok.mp h
  obtain ⟨hsize, hmem, hpass, hflag⟩ := run_loadHeaders_exact file.len_lt hloop
  rw [← List.range_eq_range'] at hmem
  rw [Nat.zero_add] at hpass hflag
  refine ⟨rfl, hsize, hmem, fun i hi => hpass i (Nat.zero_le i) hi, ?_, ?_, ?_⟩
  · rcases hflag rfl with hany | hsome
    · cases hany
    · exact hsome
  · intro i s a hi hs hc hlast
    rw [hmem]
    exact layHeaders_range_of_last hi hs hc hlast
  · intro a hclear
    rw [hmem]
    exact layHeaders_of_not_covers fun j hj => hclear j (List.mem_range.mp hj)

/-- A kernel that is its own image: one segment with the whole file at 1 MiB, filled with
zeros up to a page. -/
def wholeKernel : Content :=
  ⟨elfHeader 64 ++ (leBytes 4 1 ++ leBytes 4 5 ++ leBytes 8 0 ++ leBytes 8 0x100000 ++
    leBytes 8 0x100000 ++ leBytes 8 120 ++ leBytes 8 0x1000 ++ leBytes 8 4096), by decide⟩

def wholeSegment : Segment := ⟨0, 0x100000, 120, 0x1000⟩

theorem run_load_wholeKernel (ram : GuestRam) (h : 0x101000 ≤ ram.size)
    (hsmall : ram.size < 2 ^ 63) :
    ∃ ram', (load .release "vmlinux" (.ok wholeKernel)).run ram = (.ok ⟨0x100000⟩, ram') := by
  have hok : HeaderOk wholeKernel.bytes := by decide +kernel
  have hseg : segmentAt wholeKernel.bytes (headerOff wholeKernel.bytes 0) = some wholeSegment := by
    decide +kernel
  have hentry : valAt UInt64 wholeKernel.bytes 24 = 0x100000 := by decide +kernel
  have hrun := run_loadWith_single .release "vmlinux" (serves_zeroed hsmall) hok
    (by decide +kernel) (by decide +kernel) hseg (by decide +kernel) h
  rw [hentry] at hrun
  exact hrun

theorem headerSegment_wholeKernel : headerSegment wholeKernel.bytes 0 = some wholeSegment := by
  decide +kernel

theorem phnum_wholeKernel : phnum wholeKernel.bytes = 1 := by decide +kernel

theorem load_exact_wholeKernel :
    ∃ ram', (load .release "vmlinux" (.ok wholeKernel)).run twoMib = (.ok ⟨0x100000⟩, ram') ∧
      ram'.mem = layHeaders wholeKernel.bytes twoMib.mem [0] ∧
      ∀ a, wholeSegment.Covers a → ram'.mem a = wholeSegment.byteAt wholeKernel.bytes a := by
  obtain ⟨ram', hrun⟩ := run_load_wholeKernel twoMib (by decide) (by decide)
  obtain ⟨-, -, hmem, -, -, hlast, -⟩ :=
    load_exact .release "vmlinux" wholeKernel ⟨0x100000⟩ twoMib ram' hrun
  rw [phnum_wholeKernel] at hmem hlast
  refine ⟨ram', hrun, hmem, ?_⟩
  intro a hc
  exact hlast 0 wholeSegment a (by decide) headerSegment_wholeKernel hc fun j h0 h1 => by omega

end Elf
end HyperPod
