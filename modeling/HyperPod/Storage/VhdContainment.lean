import HyperPod.Storage.Sector

/-!
# A fixed VHD keeps to its payload

`open` checks `original_size + 512 > total` in `u64`.  Where the sum leaves `u64`
(`SizeWraps`) a debug build panics and a release build accepts a size far beyond
the file; everywhere else the sectors and the footer fit the file, and no run of
calls touches the footer or the length:

    Contained p path c ↔ ¬ SizeWraps p c                    (contained_iff)
-/

namespace HyperPod

open Machine Bytes HostFile

/-- The sector a call names. -/
def Request.sector? : Request → Option Nat
  | .read sector _ => some sector
  | .write sector _ => some sector
  | .flush => none

namespace VhdFixedBackend

/-- The last 512 bytes of the file. -/
def footerOf (c : Content) : List UInt8 := slice c.bytes (c.len - footerLen) footerLen

/-- The checks before the size checks: a `conectix` footer of disk type 2. -/
structure HasFixedFooter (c : Content) : Prop where
  len : footerLen ≤ c.len
  cookie : (footerOf c).take 8 = footerCookie
  diskType : diskType (footerOf c) = diskTypeFixed

/-- `original_size + 512` leaves `u64` and the file is not rejected for it. -/
def SizeWraps (p : Profile) (c : Content) : Prop :=
  HasFixedFooter c ∧ match p with
    | .debug => 2 ^ 64 ≤ (originalSize (footerOf c)).toNat + footerLen
    | .release => (originalSize (footerOf c)).toNat = 2 ^ 64 - footerLen

/-! ## What `open` accepts -/

section
variable {p : Profile} {path : Path} {total : Nat} {footer : List UInt8}

theorem checkFooter_rejects (p : Profile) (path : Path) (total : Nat)
    (h : ¬ (footer.take 8 = footerCookie ∧ diskType footer = diskTypeFixed ∧
      originalSize footer ≠ 0)) :
    ∃ e, checkFooter p path total footer = .err e := by
  unfold checkFooter
  by_cases h1 : footer.take 8 = footerCookie
  · by_cases h2 : diskType footer = diskTypeFixed
    · have h3 : originalSize footer = 0 := by
        by_contra h3
        exact h ⟨h1, h2, h3⟩
      simp [h1, h2, h3]
    · simp [h1, h2]
  · simp [h1]

/-- Past the first three checks only the size decides. -/
theorem checkFooter_sizes (p : Profile) (path : Path) (total : Nat)
    (h1 : footer.take 8 = footerCookie) (h2 : diskType footer = diskTypeFixed)
    (h3 : originalSize footer ≠ 0) :
    ∃ tooLarge odd, checkFooter p path total footer =
      fit p 64 ((originalSize footer).toNat + footerLen) >>= fun needed =>
        if needed > total then .err tooLarge
        else if (originalSize footer).toNat % sectorSize ≠ 0 then .err odd
        else .ok (Sectors.ofSize (originalSize footer)) := by
  refine ⟨.msg
      s!"{path.display} footer original_size={originalSize footer} but file length is {total}",
    .msg s!"{path.display} original_size {originalSize footer} not a multiple of {sectorSize}", ?_⟩
  unfold checkFooter
  rw [if_neg (not_not_intro h1), if_neg (not_not_intro h2)]
  simp only [if_neg h3]
  cases (fit p 64 ((originalSize footer).toNat + footerLen) : Result Nat) with
  | ok needed =>
    by_cases h4 : needed > total
    · simp [h4]
    · by_cases h5 : (originalSize footer).toNat % sectorSize = 0
      · simp [h4, h5]
      · simp [h4, h5]
  | err e => rfl
  | panic => rfl

theorem checkFooter_eq_ok {s : Sectors} :
    checkFooter p path total footer = .ok s ↔
      footer.take 8 = footerCookie ∧ diskType footer = diskTypeFixed ∧ originalSize footer ≠ 0 ∧
      (∃ needed, (fit p 64 ((originalSize footer).toNat + footerLen) : Result Nat) = .ok needed ∧
        needed ≤ total) ∧
      (originalSize footer).toNat % sectorSize = 0 ∧ s = Sectors.ofSize (originalSize footer) := by
  by_cases h : footer.take 8 = footerCookie ∧ diskType footer = diskTypeFixed ∧
      originalSize footer ≠ 0
  · obtain ⟨h1, h2, h3⟩ := h
    obtain ⟨tooLarge, odd, heq⟩ := checkFooter_sizes p path total h1 h2 h3
    rw [heq, Outcome.bind_eq_ok]
    constructor
    · rintro ⟨needed, hfit, hs⟩
      by_cases h4 : needed > total
      · rw [if_pos h4] at hs
        cases hs
      · rw [if_neg h4] at hs
        by_cases h5 : (originalSize footer).toNat % sectorSize = 0
        · rw [if_neg (not_not_intro h5)] at hs
          cases hs
          exact ⟨h1, h2, h3, ⟨needed, hfit, Nat.le_of_not_gt h4⟩, h5, rfl⟩
        · rw [if_pos h5] at hs
          cases hs
    · rintro ⟨-, -, -, ⟨needed, hfit, h4⟩, h5, rfl⟩
      refine ⟨needed, hfit, ?_⟩
      rw [if_neg (Nat.not_lt.mpr h4), if_neg (not_not_intro h5)]
  · obtain ⟨e, he⟩ := checkFooter_rejects p path total h
    rw [he]
    constructor
    · intro heq
      cases heq
    · rintro ⟨h1, h2, h3, -⟩
      exact absurd ⟨h1, h2, h3⟩ h

theorem checkFooter_eq_panic :
    checkFooter p path total footer = .panic ↔
      footer.take 8 = footerCookie ∧ diskType footer = diskTypeFixed ∧ originalSize footer ≠ 0 ∧
      (fit p 64 ((originalSize footer).toNat + footerLen) : Result Nat) = .panic := by
  by_cases h : footer.take 8 = footerCookie ∧ diskType footer = diskTypeFixed ∧
      originalSize footer ≠ 0
  · obtain ⟨h1, h2, h3⟩ := h
    obtain ⟨tooLarge, odd, heq⟩ := checkFooter_sizes p path total h1 h2 h3
    rw [heq]
    cases hfit : (fit p 64 ((originalSize footer).toNat + footerLen) : Result Nat) with
    | ok needed =>
      simp only [Outcome.ok_bind, reduceCtorEq, and_false, iff_false]
      split
      · simp
      · split <;> simp
    | err e => simp
    | panic => simp [h1, h2, h3]
  · obtain ⟨e, he⟩ := checkFooter_rejects p path total h
    rw [he]
    constructor
    · intro heq
      cases heq
    · rintro ⟨h1, h2, h3, -⟩
      exact absurd ⟨h1, h2, h3⟩ h

end

theorem run_openFile_small (p : Profile) (path : Path) (f : File) (h : f.content.len < footerLen) :
    ∃ e, (openFile p path).run f = (.err e, f) := by
  unfold openFile
  simp only [File.run_len_bind, if_pos h, Act.run_bail_bind]
  exact ⟨_, rfl⟩

theorem run_openFile {p : Profile} {path : Path} {f : File} (h : footerLen ≤ f.content.len) :
    (openFile p path).run f =
      (checkFooter p path f.content.len (footerOf f.content), ⟨f.content, f.content.len⟩) := by
  have hsmall : ¬ f.content.len < footerLen := by omega
  have hseek : (File.seek (f.content.len - footerLen)).run f =
      (.ok (), ⟨f.content, f.content.len - footerLen⟩) :=
    File.run_seek (by have := f.content.length_le; unfold Content.len; omega) f
  have hread : (Act.context "read VHD footer" (File.readExact .serves footerLen)).run
      ⟨f.content, f.content.len - footerLen⟩ =
        (.ok (footerOf f.content), ⟨f.content, f.content.len⟩) := by
    rw [Act.run_context, File.run_readExact (by simp only; omega)]
    simp only [withContext_ok, footerOf, Nat.sub_add_cancel h]
  unfold openFile
  simp only [File.run_len_bind, if_neg hsmall, Act.run_bind_ok hseek, Act.run_bind_ok hread,
    Act.run_lift]

theorem open_small (p : Profile) (path : Path) {c : Content} (h : c.len < footerLen) :
    ∃ e, VhdFixedBackend.open p path c = .err e := by
  obtain ⟨e, he⟩ := run_openFile_small p path (File.ofContent c) h
  unfold VhdFixedBackend.open
  rw [he]
  exact ⟨e, rfl⟩

theorem open_eq {p : Profile} {path : Path} {c : Content} (h : footerLen ≤ c.len) :
    VhdFixedBackend.open p path c =
      (checkFooter p path c.len (footerOf c)).map fun s => ⟨⟨c, c.len⟩, s⟩ := by
  unfold VhdFixedBackend.open
  rw [run_openFile (f := File.ofContent c) h]
  simp only [File.ofContent]
  cases checkFooter p path c.len (footerOf c) <;> rfl

/-- Everything an accepted file satisfies. -/
structure Accepted (p : Profile) (c : Content) (b : VhdFixedBackend) : Prop where
  fixed : HasFixedFooter c
  content : b.file.content = c
  sectors : b.sectors = Sectors.ofSize (originalSize (footerOf c))
  nonzero : originalSize (footerOf c) ≠ 0
  whole : (originalSize (footerOf c)).toNat % sectorSize = 0
  /-- the compared sum, as the profile computes it -/
  fits : ∃ needed, (fit p 64 ((originalSize (footerOf c)).toNat + footerLen) : Result Nat) =
    .ok needed ∧ needed ≤ c.len

theorem accepted_of_open {p : Profile} {path : Path} {c : Content} {b : VhdFixedBackend}
    (h : VhdFixedBackend.open p path c = .ok b) : Accepted p c b := by
  by_cases hlen : footerLen ≤ c.len
  · rw [open_eq hlen, Outcome.map_eq_ok] at h
    obtain ⟨s, hs, rfl⟩ := h
    obtain ⟨h1, h2, h3, h4, h5, rfl⟩ := checkFooter_eq_ok.mp hs
    exact ⟨⟨hlen, h1, h2⟩, rfl, rfl, h3, h5, h4⟩
  · obtain ⟨e, he⟩ := open_small p path (Nat.lt_of_not_le hlen)
    rw [he] at h
    cases h

theorem open_eq_panic {p : Profile} {path : Path} {c : Content} :
    VhdFixedBackend.open p path c = .panic ↔ HasFixedFooter c ∧ originalSize (footerOf c) ≠ 0 ∧
      (fit p 64 ((originalSize (footerOf c)).toNat + footerLen) : Result Nat) = .panic := by
  by_cases hlen : footerLen ≤ c.len
  · rw [open_eq hlen, Outcome.map_eq_panic, checkFooter_eq_panic]
    constructor
    · rintro ⟨h1, h2, h3⟩
      exact ⟨⟨hlen, h1, h2⟩, h3⟩
    · rintro ⟨⟨-, h1, h2⟩, h3⟩
      exact ⟨h1, h2, h3⟩
  · obtain ⟨e, he⟩ := open_small p path (Nat.lt_of_not_le hlen)
    rw [he]
    constructor
    · intro h
      cases h
    · rintro ⟨h, -⟩
      exact absurd h.len hlen

/-! ## The size that wraps -/

theorem originalSize_ne_zero_of_le {footer : List UInt8}
    (h : 2 ^ 64 ≤ (originalSize footer).toNat + footerLen) : originalSize footer ≠ 0 := by
  intro h0
  rw [h0] at h
  simp [footerLen] at h

/-- A debug build panics on a size that wraps. -/
theorem open_debug_panic_iff {path : Path} {c : Content} :
    VhdFixedBackend.open .debug path c = .panic ↔ SizeWraps .debug c := by
  rw [open_eq_panic]
  constructor
  · rintro ⟨h1, -, h3⟩
    refine ⟨h1, Nat.le_of_not_lt fun hlt => ?_⟩
    rw [fit_eq_ok hlt] at h3
    cases h3
  · rintro ⟨h1, h2⟩
    refine ⟨h1, originalSize_ne_zero_of_le h2, ?_⟩
    exact if_neg (Nat.not_lt.mpr h2)

theorem open_release_ne_panic {path : Path} {c : Content} :
    VhdFixedBackend.open .release path c ≠ .panic := by
  rw [ne_eq, open_eq_panic, fit_release]
  simp

/-- A release build accepts a size that wraps: the compared sum is 0. -/
theorem open_release_of_sizeWraps {path : Path} {c : Content} (h : SizeWraps .release c) :
    VhdFixedBackend.open .release path c =
      .ok ⟨⟨c, c.len⟩, Sectors.ofSize (originalSize (footerOf c))⟩ := by
  obtain ⟨hf, hsize⟩ := h
  have hchk : checkFooter .release path c.len (footerOf c) =
      .ok (Sectors.ofSize (originalSize (footerOf c))) := by
    refine checkFooter_eq_ok.mpr ⟨hf.cookie, hf.diskType, ?_, ⟨0, ?_, Nat.zero_le _⟩, ?_, rfl⟩
    · exact originalSize_ne_zero_of_le (by rw [hsize]; decide)
    · rw [fit_release, hsize]
      rfl
    · rw [hsize]
      rfl
  rw [open_eq hf.len, hchk]
  rfl

/-- The sectors are those of Original Size. -/
theorem Accepted.count_mul {p : Profile} {c : Content} {b : VhdFixedBackend}
    (h : Accepted p c b) :
    b.sectors.count * sectorSize = (originalSize (footerOf c)).toNat := by
  rw [h.sectors]
  exact Nat.div_mul_cancel (Nat.dvd_of_mod_eq_zero h.whole)

/-- Away from that size the sectors and the footer fit the file. -/
theorem Accepted.end_le {p : Profile} {c : Content} {b : VhdFixedBackend} (h : Accepted p c b)
    (hw : ¬ SizeWraps p c) : b.sectors.count * sectorSize + footerLen ≤ c.len := by
  have hlt := (originalSize (footerOf c)).toNat_lt
  have hwhole := h.whole
  obtain ⟨needed, hfit, hneeded⟩ := h.fits
  have hcount := h.count_mul
  have hsum : (originalSize (footerOf c)).toNat + footerLen < 2 ^ 64 := by
    apply Nat.lt_of_not_le
    intro hge
    cases p with
    | debug => exact hw ⟨h.fixed, hge⟩
    | release =>
      -- a multiple of 512 with no room for 512 more below 2^64
      refine hw ⟨h.fixed, ?_⟩
      simp only [footerLen, sectorSize] at *
      omega
  rw [fit_eq_ok hsum] at hfit
  cases hfit
  omega

/-! ## The containment law -/

/-- The law for one file under one profile: `open` does not panic, what it accepts
fits the file with the footer, and then in every run no call panics, every
accepted sector lies in the payload, and length and footer stay. -/
def Contained (p : Profile) (path : Path) (c : Content) : Prop :=
  VhdFixedBackend.open p path c ≠ .panic ∧
  ∀ b, VhdFixedBackend.open p path c = .ok b →
    b.sectors.count * sectorSize + footerLen ≤ c.len ∧
    ∀ rs : List (Request × Host),
      List.Forall₂ (fun r a => a ≠ .panic ∧ ∀ reply, a = .ok reply →
          ∀ sector, r.1.sector? = some sector →
            sector * sectorSize + sectorSize ≤ c.len - footerLen)
        rs (Run.answers (VhdFixedBackend.serve p) b rs) ∧
      (Run.final (VhdFixedBackend.serve p) b rs).bytes.length = c.len ∧
      footerOf (Run.final (VhdFixedBackend.serve p) b rs).file.content = footerOf c

theorem sectors_serve {p : Profile} {d : VhdFixedBackend} {sector : Nat} {r : Request × Host}
    {reply : Reply} (hreq : r.1.sector? = some sector)
    (hok : (VhdFixedBackend.serve p d r).1 = .ok reply) :
    sector * sectorSize + sectorSize ≤ d.sectors.count * sectorSize := by
  obtain ⟨req, io⟩ := r
  cases req with
  | read s buf =>
    cases hreq
    exact (SectorFile.accepts_of_serve_ok (Or.inl rfl) hok).end_le
  | write s buf =>
    cases hreq
    exact (SectorFile.accepts_of_serve_ok (Or.inr rfl) hok).end_le
  | flush => cases hreq

theorem covers_of_end_le {c : Content} {b : VhdFixedBackend} (hb : b.file.content = c)
    (hend : b.sectors.count * sectorSize + footerLen ≤ c.len) : b.Covers := by
  unfold SectorFile.Covers SectorFile.bytes
  rw [hb]
  exact Nat.le_trans (Nat.le_add_right _ _) hend

/-- A backend with room for the footer keeps the law along every run. -/
theorem run_contained {p : Profile} {c : Content} {b : VhdFixedBackend} (hb : b.file.content = c)
    (hend : b.sectors.count * sectorSize + footerLen ≤ c.len) (rs : List (Request × Host)) :
    List.Forall₂ (fun r a => a ≠ .panic ∧ ∀ reply, a = .ok reply →
        ∀ sector, r.1.sector? = some sector →
          sector * sectorSize + sectorSize ≤ c.len - footerLen)
      rs (Run.answers (VhdFixedBackend.serve p) b rs) ∧
    (Run.final (VhdFixedBackend.serve p) b rs).bytes.length = c.len ∧
    footerOf (Run.final (VhdFixedBackend.serve p) b rs).file.content = footerOf c := by
  subst hb
  have hlen : b.bytes.length = b.file.content.len := rfl
  have hcov := covers_of_end_le rfl hend
  have hkeep := SectorFile.keeps_final "vhd read_sector" "vhd write_sector" "vhd flush" p hcov rs
  refine ⟨?_, hkeep.length.trans hlen, ?_⟩
  · refine Run.answers_forall (I := SectorFile.Keeps b) (fun _ r h => h.serve r) ?_
      (SectorFile.Keeps.refl hcov) rs
    intro d r h
    refine ⟨SectorFile.serve_ne_panic h.covers r, fun reply hok sector hreq => ?_⟩
    have := sectors_serve hreq hok
    rw [h.sectors] at this
    omega
  · have htail := hkeep.tail (b.file.content.len - footerLen) footerLen (by omega)
    unfold footerOf
    rw [show (Run.final (VhdFixedBackend.serve p) b rs).file.content.len = b.file.content.len from
      hkeep.length]
    exact htail

theorem not_contained_of_sizeWraps {p : Profile} {path : Path} {c : Content} (h : SizeWraps p c) :
    ¬ Contained p path c := by
  rintro ⟨hpanic, hok⟩
  cases p with
  | debug => exact hpanic (open_debug_panic_iff.mpr h)
  | release =>
    obtain ⟨hend, -⟩ := hok _ (open_release_of_sizeWraps h)
    have hlen := c.len_lt
    have hcount : (Sectors.ofSize (originalSize (footerOf c))).count = 2 ^ 55 - 1 := by
      simp only [Sectors.ofSize, h.2]
      rfl
    rw [hcount] at hend
    simp only [sectorSize, footerLen] at hend
    omega

/-- **Containment.**  The law holds of a file exactly when its size field does not
wrap the check of `open`. -/
theorem contained_iff (p : Profile) (path : Path) (c : Content) :
    Contained p path c ↔ ¬ SizeWraps p c := by
  constructor
  · intro h hw
    exact not_contained_of_sizeWraps hw h
  · intro hw
    refine ⟨fun hpanic => ?_, fun b hb => ?_⟩
    · cases p with
      | debug => exact hw (open_debug_panic_iff.mp hpanic)
      | release => exact open_release_ne_panic hpanic
    · have hacc := accepted_of_open hb
      have hend := hacc.end_le hw
      exact ⟨hend, run_contained hacc.content hend⟩

/-! ## Images -/

/-- The footer the tests build: both size fields, then the disk type. -/
def makeFooter (size diskType : Nat) : List UInt8 :=
  footerCookie ++ List.replicate 32 0 ++ beBytes 8 size ++ beBytes 8 size ++
    List.replicate 4 0 ++ beBytes 4 diskType ++ List.replicate 448 0

theorem length_makeFooter (size diskType : Nat) :
    (makeFooter size diskType).length = footerLen := by
  simp only [makeFooter, footerCookie, footerLen, List.length_append, List.length_replicate,
    length_beBytes, List.length_cons, List.length_nil]

/-- A file that is nothing but a footer of size `2 ^ 64 - 512`. -/
def wrappingVhd : Content where
  bytes := makeFooter (2 ^ 64 - 512) 2
  length_le := by rw [length_makeFooter]; decide

theorem footerOf_wrappingVhd : footerOf wrappingVhd = makeFooter (2 ^ 64 - 512) 2 := by
  decide +kernel

/-- The release build opens it as a disk of `2 ^ 55 - 1` sectors over 512 bytes of file. -/
theorem not_contained_wrappingVhd :
    ¬ Contained .release ⟨"disk.vhd", some "vhd"⟩ wrappingVhd := by
  apply not_contained_of_sizeWraps
  refine ⟨⟨by decide +kernel, ?_, ?_⟩, ?_⟩ <;> rw [footerOf_wrappingVhd] <;> decide +kernel

end VhdFixedBackend
end HyperPod
