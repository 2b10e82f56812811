import HyperPod.Storage.SectorMap

/-!
# How much of the payload a fixed VHD exposes

A footer carries two sizes.  `open` reads Original Size (bytes 40..48) and leaves Current
Size (bytes 48..56) alone, and the file may be longer than the size it reads: so a disk
that was enlarged opens as its first Original Size bytes (`enlarged_disk_is_cut`).  The
sectors that do open can all be read and written in every reachable state, and they are the
whole payload exactly when the two sizes agree (`sectors_of_originalSize`).
-/

namespace HyperPod

open Machine Bytes HostFile

namespace VhdFixedBackend

/-- Bytes 48..56 of the footer, which `open` does not read. -/
def currentSize (footer : List UInt8) : UInt64 := UInt64.ofNat (beVal (slice footer 48 8))

/-- The sector can be read, and `buf` can be written to it and read back. -/
structure Serves (p : Profile) (d : VhdFixedBackend) (sector : Nat) (buf : List UInt8) : Prop where
  read : ∃ data, data.length = sectorSize ∧
    (serve p d (.read sector buf, .serves)).1 = .ok (.data data)
  write : (serve p d (.write sector buf, .serves)).1 = .ok .done
  reread : (serve p (serve p d (.write sector buf, .serves)).2 (.read sector buf, .serves)).1 =
    .ok (.data buf)

variable {p : Profile} {path : Path} {k original : Nat} {payload footer : List UInt8}
  {c : Content} {b d : VhdFixedBackend} {sector : Nat} {buf : List UInt8}

theorem serves_of_accepts (hcov : d.Covers) (h : Accepts d.sectors.count sector buf) :
    Serves p d sector buf where
  read := by
    refine ⟨_, length_slice ?_, SectorFile.read_accepted hcov h⟩
    exact Nat.le_trans h.end_le hcov
  write := SectorFile.write_accepted hcov h
  reread := SectorFile.read_after_write hcov h

/-- Every sector of a backend is served after any run, whatever the host did in it. -/
theorem serves_of_run (hcov : b.Covers) (h : Accepts b.sectors.count sector buf)
    (rs : List (Request × Host)) : Serves p (Run.final (serve p) b rs) sector buf := by
  have hkeep := SectorFile.keeps_final "vhd read_sector" "vhd write_sector" "vhd flush" p hcov rs
  refine serves_of_accepts hkeep.covers ?_
  show Accepts (Run.final (serve p) b rs).sectors.count sector buf
  rw [show (Run.final (serve p) b rs).sectors = b.sectors from hkeep.sectors]
  exact h

/-! ## The two sizes -/

/-- An accepted file has not wrapped the size check, but for the one size that does. -/
theorem not_sizeWraps_of_open (hopen : VhdFixedBackend.open p path c = .ok b)
    (hw : (originalSize (footerOf c)).toNat + footerLen ≠ 2 ^ 64) : ¬ SizeWraps p c := by
  intro hwraps
  cases p with
  | debug =>
    rw [open_debug_panic_iff.mpr hwraps] at hopen
    cases hopen
  | release =>
    apply hw
    rw [hwraps.2]
    rfl

theorem Accepted.count_pos (h : Accepted p c b) : 1 ≤ b.sectors.count := by
  apply Nat.pos_of_ne_zero
  intro h0
  have hmul := h.count_mul
  rw [h0, Nat.zero_mul] at hmul
  exact h.nonzero (UInt64.toNat_inj.mp hmul.symm)

/-- **The sectors are those of Original Size.**  A payload of `k` sectors and a fixed footer
whose Current Size is the payload's open as no more than the payload and all of it exactly
when Original Size agrees; every sector opened starts as the payload's and is served after
any run. -/
theorem sectors_of_originalSize (p : Profile) (path : Path) (k original : Nat)
    (payload footer : List UInt8) (c : Content) (b : VhdFixedBackend)
    (hpay : payload.length = k * sectorSize) (hfoot : IsFixedFooter footer original)
    (hcurrent : (currentSize footer).toNat = k * sectorSize) (hc : c.bytes = payload ++ footer)
    (hw : original + footerLen ≠ 2 ^ 64) (hopen : VhdFixedBackend.open p path c = .ok b) :
    b.sectors.count = original / sectorSize ∧ 1 ≤ b.sectors.count ∧ b.sectors.count ≤ k ∧
    (b.sectors.count = k ↔ originalSize footer = currentSize footer) ∧
    ∀ sector < b.sectors.count, ∀ buf, buf.length = sectorSize →
      (serve p b (.read sector buf, .serves)).1 =
        .ok (.data (slice payload (sector * sectorSize) sectorSize)) ∧
      ∀ rs : List (Request × Host), Serves p (Run.final (serve p) b rs) sector buf := by
  have hacc := accepted_of_open hopen
  have hsize : (originalSize (footerOf c)).toNat = original := by
    rw [footerOf_append hfoot.length hc, hfoot.size]
  have hmul := hacc.count_mul
  rw [hsize] at hmul
  have hend := hacc.end_le (not_sizeWraps_of_open hopen (by rw [hsize]; exact hw))
  have hcov := covers_of_end_le hacc.content hend
  have hle : b.sectors.count ≤ k := by
    rw [Content.len, hc, List.length_append, hpay, hfoot.length] at hend
    exact Nat.le_of_mul_le_mul_right (Nat.le_of_add_le_add_right hend) (by decide)
  refine ⟨?_, hacc.count_pos, hle, ?_, fun sector hsector buf hbuf => ⟨?_, fun rs => ?_⟩⟩
  · rw [← hmul]
    exact (Nat.mul_div_cancel _ (by decide)).symm
  · rw [← UInt64.toNat_inj, hfoot.size, hcurrent, ← hmul]
    exact (Nat.mul_left_inj (by decide)).symm
  · have hin : (sector + 1) * sectorSize ≤ k * sectorSize :=
      Nat.mul_le_mul_right _ (Nat.le_trans hsector hle)
    rw [Nat.add_mul, Nat.one_mul, ← hpay] at hin
    have hread : (serve p b (.read sector buf, .serves)).1 = _ :=
      SectorFile.read_accepted hcov ⟨hsector, hbuf⟩
    rw [hread, SectorFile.bytes, hacc.content, hc, slice_append_left hin]
  · exact serves_of_run hcov ⟨hsector, hbuf⟩ rs

/-- The footer of a disk of `original` bytes that was resized to `current`. -/
def resizedFooter (original current : Nat) : List UInt8 :=
  footerCookie ++ List.replicate 32 0 ++ beBytes 8 original ++ beBytes 8 current ++
    List.replicate 4 0 ++ beBytes 4 diskTypeFixed ++ List.replicate 448 0

theorem length_resizedFooter (original current : Nat) :
    (resizedFooter original current).length = footerLen := by
  simp only [resizedFooter, footerCookie, footerLen, List.length_append, List.length_replicate,
    length_beBytes, List.length_cons, List.length_nil]

theorem isFixedFooter_enlarged : IsFixedFooter (resizedFooter 512 1024) 512 :=
  ⟨length_resizedFooter 512 1024, by decide +kernel, by decide +kernel, by decide +kernel⟩

/-- A disk of one sector, enlarged to two. -/
def enlargedVhd : Content where
  bytes := List.replicate 1024 0 ++ resizedFooter 512 1024
  length_le := by
    rw [List.length_append, List.length_replicate, length_resizedFooter]
    decide

/-- It opens as one sector. -/
theorem open_enlargedVhd :
    ∃ b, VhdFixedBackend.open .debug ⟨"disk.vhd", some "vhd"⟩ enlargedVhd = .ok b ∧
      b.sectors.count = 1 := by
  have hlen : enlargedVhd.len = 1536 := by decide +kernel
  have hfooter : footerOf enlargedVhd = resizedFooter 512 1024 :=
    footerOf_append (length_resizedFooter 512 1024) rfl
  have hchk : checkFooter .debug ⟨"disk.vhd", some "vhd"⟩ enlargedVhd.len
      (footerOf enlargedVhd) = .ok (Sectors.ofSize (originalSize (resizedFooter 512 1024))) := by
    rw [hlen, hfooter]
    have hfoot := isFixedFooter_enlarged
    exact checkFooter_eq_ok.mpr ⟨hfoot.cookie, hfoot.diskType, by decide +kernel,
      ⟨1024, by decide +kernel, by decide⟩, by decide +kernel, rfl⟩
  refine ⟨⟨⟨enlargedVhd, 1536⟩, Sectors.ofSize (originalSize (resizedFooter 512 1024))⟩, ?_, ?_⟩
  · rw [open_eq (by rw [hlen]; decide), hchk, hlen]
    rfl
  · decide +kernel

theorem sectors_of_originalSize_enlarged :
    ∃ b, VhdFixedBackend.open .debug ⟨"disk.vhd", some "vhd"⟩ enlargedVhd = .ok b ∧
      b.sectors.count = 512 / sectorSize := by
  obtain ⟨b, hb, -⟩ := open_enlargedVhd
  exact ⟨b, hb, (sectors_of_originalSize .debug ⟨"disk.vhd", some "vhd"⟩ 2 512
    (List.replicate 1024 0) (resizedFooter 512 1024) enlargedVhd b List.length_replicate
    isFixedFooter_enlarged (by decide +kernel) rfl (by decide) hb).1⟩

/-- Half of the enlarged disk is not exposed. -/
theorem enlarged_disk_is_cut :
    ¬ ∀ (p : Profile) (path : Path) (k original : Nat) (payload footer : List UInt8)
      (c : Content) (b : VhdFixedBackend), 1 ≤ k → payload.length = k * sectorSize →
      IsFixedFooter footer original → (currentSize footer).toNat = k * sectorSize →
      c.bytes = payload ++ footer → VhdFixedBackend.open p path c = .ok b →
      b.sectors.count = k := by
  intro h
  obtain ⟨b, hb, hcount⟩ := open_enlargedVhd
  have htwo := h .debug ⟨"disk.vhd", some "vhd"⟩ 2 512 (List.replicate 1024 0)
    (resizedFooter 512 1024) enlargedVhd b (by decide) List.length_replicate
    isFixedFooter_enlarged (by decide +kernel) rfl hb
  rw [hcount] at htwo
  exact absurd htwo (by decide)

end VhdFixedBackend
end HyperPod
