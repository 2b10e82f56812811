import HyperPod.Storage.Detect

/-!
# When guest writes can change what the image is taken for

An extension in the table fixes the format: no run of calls on the opened backend
changes what a later `detect_format` and `open` answer.  Without one the format is
probed from bytes the guest can write, and it stays exactly when the content the
guest leaves has no VHDX magic at its head and, for a raw image, no VHD cookie in
its last 512 bytes (`format_kept_iff`).
-/

namespace HyperPod

open Machine Bytes HostFile
open VhdFixedBackend (footerOf footerLen SizeWraps Accepted)

/-! ## Opening again -/

theorem RawBackend.open_eq_ok {path : Path} {c : Content} {b : RawBackend} :
    RawBackend.open path c = .ok b ↔ c.len ≠ 0 ∧ c.len % sectorSize = 0 ∧
      b = ⟨File.ofContent c, Sectors.ofSize (UInt64.ofNat c.len)⟩ := by
  unfold RawBackend.open
  by_cases h0 : c.len = 0
  · simp [h0]
  · by_cases h1 : c.len % sectorSize = 0
    · simp [h0, h1, @eq_comm _ b]
    · simp [h0, h1]

theorem RawBackend.covers_of_open {path : Path} {c : Content} {b : RawBackend}
    (h : RawBackend.open path c = .ok b) : SectorFile.Covers b := by
  obtain ⟨-, -, rfl⟩ := RawBackend.open_eq_ok.mp h
  have hlt := c.len_lt
  have hnat : (UInt64.ofNat c.len).toNat = c.len := by
    rw [UInt64.toNat_ofNat']
    exact Nat.mod_eq_of_lt (by omega)
  show (UInt64.ofNat c.len).toNat / sectorSize * sectorSize ≤ c.len
  rw [hnat]
  exact Nat.div_mul_le_self _ _

/-- A raw image opens by its length alone. -/
theorem RawBackend.open_of_len {path : Path} {c c' : Content} {b : RawBackend}
    (h : RawBackend.open path c = .ok b) (hlen : c'.len = c.len) :
    ∃ b', RawBackend.open path c' = .ok b' ∧ b'.sectors = b.sectors := by
  obtain ⟨h0, h1, rfl⟩ := RawBackend.open_eq_ok.mp h
  refine ⟨⟨File.ofContent c', Sectors.ofSize (UInt64.ofNat c'.len)⟩,
    RawBackend.open_eq_ok.mpr ⟨by rw [hlen]; exact h0, by rw [hlen]; exact h1, rfl⟩, ?_⟩
  rw [hlen]

/-- A fixed VHD opens by its length and its footer alone. -/
theorem VhdFixedBackend.open_of_footer {p : Profile} {path : Path} {c c' : Content}
    {b : VhdFixedBackend} (h : VhdFixedBackend.open p path c = .ok b) (hlen : c'.len = c.len)
    (hfoot : footerOf c' = footerOf c) :
    ∃ b', VhdFixedBackend.open p path c' = .ok b' ∧ b'.sectors = b.sectors := by
  have hacc := VhdFixedBackend.accepted_of_open h
  have hle := hacc.fixed.len
  rw [VhdFixedBackend.open_eq hle, Outcome.map_eq_ok] at h
  obtain ⟨s, hs, rfl⟩ := h
  refine ⟨⟨⟨c', c'.len⟩, s⟩, ?_, rfl⟩
  rw [VhdFixedBackend.open_eq (by rw [hlen]; exact hle), hfoot, hlen, hs]
  rfl

/-! ## What a run of calls leaves -/

section
variable {p : Profile} {path : Path} {c : Content}

theorem final_raw (b : RawBackend) (rs : List (Request × Host)) :
    Run.final (BlockBackend.serve p) (.raw b) rs = .raw (Run.final (RawBackend.serve p) b rs) :=
  Run.final_map (f := BlockBackend.raw) (fun _ _ => rfl) b rs

theorem final_vhdFixed (b : VhdFixedBackend) (rs : List (Request × Host)) :
    Run.final (BlockBackend.serve p) (.vhdFixed b) rs =
      .vhdFixed (Run.final (VhdFixedBackend.serve p) b rs) :=
  Run.final_map (f := BlockBackend.vhdFixed) (fun _ _ => rfl) b rs

theorem raw_content_final {b : RawBackend} (h : RawBackend.open path c = .ok b)
    (rs : List (Request × Host)) :
    (Run.final (RawBackend.serve p) b rs).file.content.len = c.len := by
  have hkeep := SectorFile.keeps_final "read_sector" "write_sector" "flush rootfs" p
    (RawBackend.covers_of_open h) rs
  obtain ⟨-, -, rfl⟩ := RawBackend.open_eq_ok.mp h
  exact hkeep.length

theorem vhd_content_final {b : VhdFixedBackend} (h : VhdFixedBackend.open p path c = .ok b)
    (hsafe : ¬ SizeWraps p c) (rs : List (Request × Host)) :
    (Run.final (VhdFixedBackend.serve p) b rs).file.content.len = c.len ∧
      footerOf (Run.final (VhdFixedBackend.serve p) b rs).file.content = footerOf c := by
  have hacc := VhdFixedBackend.accepted_of_open h
  obtain ⟨-, hlen, hfoot⟩ :=
    VhdFixedBackend.run_contained hacc.content (hacc.end_le hsafe) rs
  exact ⟨hlen, hfoot⟩

end

/-! ## Detecting again -/

namespace Storage

variable {p : Profile} {path : Path} {c c' : Content} {be : BlockBackend}

/-- A later `detect_format` gives the same format and a later `open` the same sector count. -/
def Reopens (p : Profile) (path : Path) (c c' : Content) (be : BlockBackend) : Prop :=
  detectFormat path c' = detectFormat path c ∧
    ∃ be', Storage.open p path c' = .ok be' ∧ be'.sectorCount = be.sectorCount

theorem hasVhdCookie_congr (hlen : c'.len = c.len) (hfoot : footerOf c' = footerOf c) :
    HasVhdCookie c' ↔ HasVhdCookie c := by
  unfold HasVhdCookie
  rw [hlen, hfoot]

theorem classify_fixed_iff : ((classifyVhd path).run (File.ofContent c)).1 = .ok .vhdFixed ↔
    HasVhdCookie c ∧ VhdFixedBackend.diskType (footerOf c) = 2 := by
  have h := classifyVhd_eq_ok path (File.ofContent c) .vhdFixed
  simp only [reduceCtorEq, and_false, or_false, and_true] at h
  exact h

/-- A fixed VHD is classified by its length and its footer. -/
theorem classify_fixed_congr (hlen : c'.len = c.len) (hfoot : footerOf c' = footerOf c)
    (h : ((classifyVhd path).run (File.ofContent c)).1 = .ok .vhdFixed) :
    ((classifyVhd path).run (File.ofContent c')).1 = .ok .vhdFixed := by
  rw [classify_fixed_iff] at h ⊢
  rwa [hasVhdCookie_congr hlen hfoot, hfoot]

/-- Classification by a footer never answers raw. -/
theorem classify_ne_raw : ((classifyVhd path).run (File.ofContent c)).1 ≠ .ok .raw := by
  rw [ne_eq, classifyVhd_eq_ok]
  rintro ⟨-, ⟨-, h⟩ | ⟨-, h⟩⟩ <;> cases h

theorem detect_raw_iff (hpath : extensionRule path = .probe) :
    detectFormat path c = .ok .raw ↔ ¬ HasVhdxHead c ∧ ¬ HasVhdCookie c := by
  rw [detectFormat_probe hpath]
  by_cases hx : HasVhdxHead c
  · simp [hx]
  · by_cases hv : HasVhdCookie c
    · simp [hx, hv, classify_ne_raw]
    · simp [hx, hv]

theorem reopens_raw {b : RawBackend} (hdet : detectFormat path c = .ok .raw)
    (hb : RawBackend.open path c = .ok b) (hlen : c'.len = c.len)
    (hdet' : detectFormat path c' = .ok .raw) : Reopens p path c c' (.raw b) := by
  obtain ⟨b', hb', hsec⟩ := RawBackend.open_of_len hb hlen
  refine ⟨hdet'.trans hdet.symm, .raw b', open_eq_ok.mpr (Or.inl ⟨hdet', b', hb', rfl⟩), ?_⟩
  exact congrArg Sectors.count hsec

theorem reopens_vhdFixed {b : VhdFixedBackend} (hdet : detectFormat path c = .ok .vhdFixed)
    (hb : VhdFixedBackend.open p path c = .ok b) (hlen : c'.len = c.len)
    (hfoot : footerOf c' = footerOf c) (hdet' : detectFormat path c' = .ok .vhdFixed) :
    Reopens p path c c' (.vhdFixed b) := by
  obtain ⟨b', hb', hsec⟩ := VhdFixedBackend.open_of_footer hb hlen hfoot
  refine ⟨hdet'.trans hdet.symm, .vhdFixed b', open_eq_ok.mpr (Or.inr ⟨hdet', b', hb', rfl⟩), ?_⟩
  exact congrArg Sectors.count hsec

/-- A raw image, after a run that left `c'` of the same length. -/
theorem raw_reopens_iff {b : RawBackend} (hdet : detectFormat path c = .ok .raw)
    (hb : RawBackend.open path c = .ok b) (hlen : c'.len = c.len) :
    (extensionRule path ≠ .probe → Reopens p path c c' (.raw b)) ∧
    (extensionRule path = .probe →
      (Reopens p path c c' (.raw b) ↔ ¬ HasVhdxHead c' ∧ ¬ HasVhdCookie c')) := by
  constructor
  · intro hpath
    refine reopens_raw hdet hb hlen ?_
    cases hrule : extensionRule path with
    | raw => simp [detectFormat, hrule]
    | vhd =>
      rw [detectFormat, hrule] at hdet
      exact absurd hdet classify_ne_raw
    | vhdx => simp [detectFormat, hrule] at hdet
    | probe => exact absurd hrule hpath
  · intro hpath
    rw [← detect_raw_iff hpath]
    exact ⟨fun h => h.1.trans hdet, fun h => reopens_raw hdet hb hlen h⟩

/-- A fixed VHD, after a run that left `c'` of the same length and footer. -/
theorem vhdFixed_reopens_iff {b : VhdFixedBackend} (hdet : detectFormat path c = .ok .vhdFixed)
    (hb : VhdFixedBackend.open p path c = .ok b) (hlen : c'.len = c.len)
    (hfoot : footerOf c' = footerOf c) :
    (extensionRule path ≠ .probe → Reopens p path c c' (.vhdFixed b)) ∧
    (extensionRule path = .probe → (Reopens p path c c' (.vhdFixed b) ↔ ¬ HasVhdxHead c')) := by
  constructor
  · intro hpath
    refine reopens_vhdFixed hdet hb hlen hfoot ?_
    cases hrule : extensionRule path with
    | raw => simp [detectFormat, hrule] at hdet
    | vhd =>
      simp only [detectFormat, hrule] at hdet ⊢
      exact classify_fixed_congr hlen hfoot hdet
    | vhdx => simp [detectFormat, hrule] at hdet
    | probe => exact absurd hrule hpath
  · intro hpath
    have hclass : ¬ HasVhdxHead c ∧ HasVhdCookie c ∧
        ((classifyVhd path).run (File.ofContent c)).1 = .ok .vhdFixed := by
      rw [detectFormat_probe hpath] at hdet
      by_cases hx : HasVhdxHead c
      · simp [hx] at hdet
      · by_cases hv : HasVhdCookie c
        · simp only [if_neg hx, if_pos hv] at hdet
          exact ⟨hx, hv, hdet⟩
        · simp [hx, hv] at hdet
    constructor
    · rintro ⟨hsame, -⟩ hx
      rw [hdet, detectFormat_probe hpath, if_pos hx] at hsame
      cases hsame
    · intro hx
      refine reopens_vhdFixed hdet hb hlen hfoot ?_
      rw [detectFormat_probe hpath, if_neg hx,
        if_pos ((hasVhdCookie_congr hlen hfoot).mpr hclass.2.1)]
      exact classify_fixed_congr hlen hfoot hclass.2.2

/-- **Format stability.**  After any run of calls on an opened image: with an
extension of the table the image reopens as it was; without one it does exactly
when the content left behind shows no VHDX head and, for a raw image, no VHD
cookie. -/
theorem format_kept_iff (p : Profile) (path : Path) (c : Content) (be : BlockBackend)
    (hopen : Storage.open p path c = .ok be)
    (hsafe : detectFormat path c = .ok .vhdFixed → ¬ SizeWraps p c) (rs : List (Request × Host)) :
    let c' := (Run.final (BlockBackend.serve p) be rs).content
    (extensionRule path ≠ .probe → Reopens p path c c' be) ∧
    (extensionRule path = .probe →
      (Reopens p path c c' be ↔
        ¬ HasVhdxHead c' ∧ (detectFormat path c = .ok .raw → ¬ HasVhdCookie c'))) := by
  intro c'
  rcases open_eq_ok.mp hopen with ⟨hdet, b, hb, rfl⟩ | ⟨hdet, b, hb, rfl⟩
  · have hc' : c' = (Run.final (RawBackend.serve p) b rs).file.content :=
      congrArg BlockBackend.content (final_raw b rs)
    have hlen : c'.len = c.len := by rw [hc']; exact raw_content_final hb rs
    simpa [hdet] using raw_reopens_iff (p := p) hdet hb hlen
  · have hc' : c' = (Run.final (VhdFixedBackend.serve p) b rs).file.content :=
      congrArg BlockBackend.content (final_vhdFixed b rs)
    obtain ⟨hlen, hfoot⟩ := vhd_content_final hb (hsafe hdet) rs
    rw [← hc'] at hlen hfoot
    simpa [hdet] using vhdFixed_reopens_iff hdet hb hlen hfoot

/-! ## A raw image without an extension -/

/-- The unconditional law: every run of writes on the opened image keeps it. -/
def FormatKept (p : Profile) (path : Path) (c : Content) : Prop :=
  ∀ be, Storage.open p path c = .ok be → ∀ writes : List (Nat × List UInt8),
    Reopens p path c (Run.final (BlockBackend.serve p) be
      (writes.map fun w => (.write w.1 w.2, .serves))).content be

/-- One sector that begins with the VHDX magic. -/
def vhdxSector : List UInt8 := vhdxHeadMagic ++ List.replicate 504 0

/-- One sector of zeros. -/
def zeroDisk : Content := ⟨List.replicate 512 0, by rw [List.length_replicate]; decide⟩

/-- The zero disk opened as a raw image. -/
def zeroRaw : RawBackend := ⟨File.ofContent zeroDisk, Sectors.ofSize 512⟩

theorem open_zeroRaw {path : Path} (h : detectFormat path zeroDisk = .ok .raw) :
    Storage.open .release path zeroDisk = .ok (.raw zeroRaw) :=
  have hlen : zeroDisk.len = 512 := List.length_replicate
  open_eq_ok.mpr (Or.inl ⟨h, zeroRaw, RawBackend.open_eq_ok.mpr
    ⟨by rw [hlen]; decide, by rw [hlen]; decide, by rw [hlen]; rfl⟩, rfl⟩)

theorem format_kept_iff_zeroDisk :
    Reopens .release ⟨"disk.img", some "IMG"⟩ zeroDisk
      (Run.final (BlockBackend.serve .release) (.raw zeroRaw)
        [(.write 0 vhdxSector, .serves)]).content (.raw zeroRaw) := by
  have hdet : detectFormat ⟨"disk.img", some "IMG"⟩ zeroDisk = .ok .raw := by decide
  have h := format_kept_iff .release ⟨"disk.img", some "IMG"⟩ zeroDisk (.raw zeroRaw)
    (open_zeroRaw hdet) (fun hc => by rw [hdet] at hc; cases hc) [(.write 0 vhdxSector, .serves)]
  exact h.1 (by decide)

/-- The guest writes the magic into sector 0 and the disk becomes a VHDX image. -/
theorem not_formatKept_zeroDisk : ¬ FormatKept .release ⟨"disk", none⟩ zeroDisk := by
  intro h
  have hpath : extensionRule ⟨"disk", none⟩ = .probe := rfl
  have hdet : detectFormat ⟨"disk", none⟩ zeroDisk = .ok .raw :=
    (detect_raw_iff hpath).mpr ⟨by decide +kernel, by decide +kernel⟩
  obtain ⟨hsame, -⟩ := h _ (open_zeroRaw hdet) [(0, vhdxSector)]
  have hhead : HasVhdxHead (Run.final (BlockBackend.serve .release) (.raw zeroRaw)
      ([(0, vhdxSector)].map fun w => (.write w.1 w.2, .serves))).content := by
    decide +kernel
  rw [hdet, detect_raw_iff hpath] at hsame
  exact hsame.1 hhead

end Storage
end HyperPod
