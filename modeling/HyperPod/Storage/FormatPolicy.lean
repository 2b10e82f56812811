import HyperPod.Storage.FormatStability

/-!
# Container images at `storage::open`

The documented policy is extension first, then the magic: a VHDX image and a dynamic VHD
are hard errors.  The probe and the `.vhd` and `.vhdx` arms keep to it, but `.raw`, `.img`
and `.ext4` are served as raw sectors by their length alone, and a `.vhd` by its footer
alone.  These two arms are the exact exceptions (`open_rejects_iff`).
-/

namespace HyperPod

open Machine Bytes HostFile
open VhdFixedBackend (footerOf footerLen originalSize diskType HasFixedFooter)

namespace VhdFixedBackend

/-- The size checks of `open` let an image of `total` bytes pass, or panic on it. -/
def SizePasses (p : Profile) (total size : Nat) : Prop :=
  size ≠ 0 ∧ match p with
    | .debug => 2 ^ 64 ≤ size + footerLen ∨ (size + footerLen ≤ total ∧ size % sectorSize = 0)
    | .release => (size + footerLen) % 2 ^ 64 ≤ total ∧ size % sectorSize = 0

/-- The last two checks of `open`. -/
theorem sizes_err_iff {needed total size : Nat} {tooLarge odd : Error} {s : Sectors} :
    (∃ e, (if needed > total then .err tooLarge
      else if size % sectorSize ≠ 0 then .err odd
      else .ok s : Result Sectors) = .err e) ↔ ¬ (needed ≤ total ∧ size % sectorSize = 0) := by
  by_cases hlarge : needed > total
  · rw [if_pos hlarge]
    constructor
    · rintro - ⟨hle, -⟩
      omega
    · intro _
      exact ⟨_, rfl⟩
  · rw [if_neg hlarge]
    by_cases hodd : size % sectorSize ≠ 0
    · rw [if_pos hodd]
      constructor
      · rintro - ⟨-, hz⟩
        exact hodd hz
      · intro _
        exact ⟨_, rfl⟩
    · rw [if_neg hodd]
      constructor
      · rintro ⟨e, he⟩
        cases he
      · intro hn
        exact absurd ⟨Nat.le_of_not_gt hlarge, not_not.mp hodd⟩ hn

theorem checkFooter_err_iff {p : Profile} {path : Path} {total : Nat} {footer : List UInt8}
    (h1 : footer.take 8 = footerCookie) (h2 : diskType footer = diskTypeFixed) :
    (∃ e, checkFooter p path total footer = .err e) ↔
      ¬ SizePasses p total (originalSize footer).toNat := by
  unfold SizePasses
  by_cases h3 : originalSize footer = 0
  · have hrejects : ∃ e, checkFooter p path total footer = .err e :=
      checkFooter_rejects p path total fun h => h.2.2 h3
    rw [h3]
    simpa using hrejects
  · have hne : (originalSize footer).toNat ≠ 0 := fun h => h3 (UInt64.toNat_inj.mp h)
    obtain ⟨tooLarge, odd, heq⟩ := checkFooter_sizes p path total h1 h2 h3
    rw [heq]
    cases p with
    | debug =>
      by_cases hwrap : 2 ^ 64 ≤ (originalSize footer).toNat + footerLen
      · rw [fit_debug_eq_panic hwrap]
        constructor
        · rintro ⟨e, he⟩
          cases he
        · intro hn
          exact absurd ⟨hne, Or.inl hwrap⟩ hn
      · rw [fit_eq_ok (Nat.not_le.mp hwrap), Outcome.ok_bind, sizes_err_iff]
        simp only [ne_eq, hne, not_false_eq_true, hwrap, false_or, true_and]
    | release =>
      rw [fit_release, Outcome.ok_bind, sizes_err_iff]
      simp only [ne_eq, hne, not_false_eq_true, true_and]

/-- **The backend rejects** what has no fixed footer or fails the size checks. -/
theorem open_err_iff {p : Profile} {path : Path} {c : Content} :
    (∃ e, VhdFixedBackend.open p path c = .err e) ↔
      ¬ (HasFixedFooter c ∧ SizePasses p c.len (originalSize (footerOf c)).toNat) := by
  by_cases hlen : footerLen ≤ c.len
  · have hmap : (∃ e, VhdFixedBackend.open p path c = .err e) ↔
        ∃ e, checkFooter p path c.len (footerOf c) = .err e := by
      rw [open_eq hlen]
      cases checkFooter p path c.len (footerOf c) with
      | ok s => simp
      | err e => simp
      | panic => simp [Outcome.map]
    rw [hmap]
    by_cases hfoot : (footerOf c).take 8 = footerCookie ∧ diskType (footerOf c) = diskTypeFixed
    · have hf : HasFixedFooter c := ⟨hlen, hfoot.1, hfoot.2⟩
      rw [checkFooter_err_iff hfoot.1 hfoot.2]
      simp only [hf, true_and]
    · have hf : ¬ HasFixedFooter c := fun hf => hfoot ⟨hf.cookie, hf.diskType⟩
      simp only [hf, false_and, not_false_eq_true, iff_true]
      exact checkFooter_rejects p path c.len fun h => hfoot ⟨h.1, h.2.1⟩
  · have hf : ¬ HasFixedFooter c := fun hf => hlen hf.len
    simp only [hf, false_and, not_false_eq_true, iff_true]
    exact open_small p path (Nat.lt_of_not_le hlen)

end VhdFixedBackend

namespace Storage

variable {p : Profile} {path : Path} {c : Content}

/-- The content is a container that HyperPod does not serve: it begins with the VHDX magic
or ends in the footer of a dynamic or differencing VHD. -/
def Foreign (c : Content) : Prop :=
  HasVhdxHead c ∨ HasVhdCookie c ∧ (diskType (footerOf c) = 3 ∨ diskType (footerOf c) = 4)

instance (c : Content) : Decidable (Foreign c) := inferInstanceAs (Decidable (_ ∨ _))

/-- Served as raw sectors, by extension and length. -/
def ServedRaw (path : Path) (c : Content) : Prop :=
  extensionRule path = .raw ∧ c.len ≠ 0 ∧ c.len % sectorSize = 0

/-- The footer of a fixed VHD, of a size that the backend does not reject. -/
def FixedPasses (p : Profile) (c : Content) : Prop :=
  HasFixedFooter c ∧
    VhdFixedBackend.SizePasses p c.len (originalSize (footerOf c)).toNat

/-- Taken for a fixed VHD, by extension and footer. -/
def TakenForVhd (p : Profile) (path : Path) (c : Content) : Prop :=
  extensionRule path = .vhd ∧ FixedPasses p c

/-! ## One format at a time -/

theorem open_err_of_container
    (h : detectFormat path c = .ok .vhdx ∨ detectFormat path c = .ok .vhdDynamic) :
    ∃ e, Storage.open p path c = .err e := by
  unfold Storage.open
  rcases h with h | h
  · rw [h]
    exact ⟨_, rfl⟩
  · rw [h]
    exact ⟨_, rfl⟩

theorem open_err_raw_iff (h : detectFormat path c = .ok .raw) :
    (∃ e, Storage.open p path c = .err e) ↔ ¬ (c.len ≠ 0 ∧ c.len % sectorSize = 0) := by
  have hopen : Storage.open p path c = RawBackend.open path c >>= fun b => .ok (.raw b) := by
    unfold Storage.open
    rw [h]
    rfl
  rw [hopen]
  unfold RawBackend.open
  by_cases h0 : c.len = 0
  · rw [if_pos h0]
    constructor
    · rintro - ⟨hne, -⟩
      exact hne h0
    · intro _
      exact ⟨_, rfl⟩
  · rw [if_neg h0]
    by_cases h1 : c.len % sectorSize = 0
    · rw [if_neg (not_not_intro h1)]
      constructor
      · rintro ⟨e, he⟩
        cases he
      · intro hn
        exact absurd ⟨h0, h1⟩ hn
    · rw [if_pos h1]
      constructor
      · rintro - ⟨-, hz⟩
        exact h1 hz
      · intro _
        exact ⟨_, rfl⟩

theorem open_err_vhdFixed_iff (h : detectFormat path c = .ok .vhdFixed) :
    (∃ e, Storage.open p path c = .err e) ↔
      ¬ FixedPasses p c := by
  have hopen : Storage.open p path c =
      VhdFixedBackend.open p path c >>= fun b => .ok (.vhdFixed b) := by
    unfold Storage.open
    rw [h]
    rfl
  unfold FixedPasses
  rw [hopen, ← VhdFixedBackend.open_err_iff]
  cases VhdFixedBackend.open p path c with
  | ok b => simp
  | err e => simp
  | panic => simp

/-! ## The policy -/

/-- A foreign image with a VHD cookie of type 3 or 4 is classified as dynamic. -/
theorem classify_dynamic (hcookie : HasVhdCookie c)
    (htype : diskType (footerOf c) = 3 ∨ diskType (footerOf c) = 4) :
    ((classifyVhd path).run (File.ofContent c)).1 = .ok .vhdDynamic :=
  (classifyVhd_eq_ok path (File.ofContent c) .vhdDynamic).mpr
    ⟨hcookie, Or.inr ⟨htype, rfl⟩⟩

/-- The probe recognises every foreign image. -/
theorem open_probe_foreign (hpath : extensionRule path = .probe) (h : Foreign c) :
    ∃ e, Storage.open p path c = .err e := by
  apply open_err_of_container
  rw [detectFormat_probe hpath]
  by_cases hx : HasVhdxHead c
  · rw [if_pos hx]
    exact Or.inl rfl
  · obtain hx' | ⟨hcookie, htype⟩ := h
    · exact absurd hx' hx
    · rw [if_neg hx, if_pos hcookie, classify_dynamic hcookie htype]
      exact Or.inr rfl

/-- The `.vhd` arm looks at the footer only. -/
theorem open_vhd_err_iff (hpath : extensionRule path = .vhd) :
    (∃ e, Storage.open p path c = .err e) ↔
      ¬ FixedPasses p c := by
  by_cases hf : HasFixedFooter c
  · apply open_err_vhdFixed_iff
    rw [detectFormat, hpath]
    exact classify_fixed_iff.mpr ⟨⟨hf.len, hf.cookie⟩, hf.diskType⟩
  · have hne : detectFormat path c ≠ .ok .raw ∧ detectFormat path c ≠ .ok .vhdFixed := by
      rw [detectFormat, hpath]
      refine ⟨classify_ne_raw, ?_⟩
      intro hfixed
      obtain ⟨⟨hlen, hcookie⟩, htype⟩ := classify_fixed_iff.mp hfixed
      exact hf ⟨hlen, hcookie, htype⟩
    constructor
    · rintro - ⟨hf', -⟩
      exact hf hf'
    · intro _
      cases hd : detectFormat path c with
      | ok fmt =>
        cases fmt with
        | raw => exact absurd hd hne.1
        | vhdFixed => exact absurd hd hne.2
        | vhdDynamic => exact open_err_of_container (Or.inr hd)
        | vhdx => exact open_err_of_container (Or.inl hd)
      | err e =>
        unfold Storage.open
        rw [hd]
        exact ⟨e, rfl⟩
      | panic => exact absurd hd detectFormat_ne_panic

/-- **The format policy** holds for a file name and a content exactly when neither of the two
arms takes a foreign image unverified. -/
theorem open_rejects_iff (p : Profile) (path : Path) (c : Content) :
    (Foreign c → ∃ e, Storage.open p path c = .err e) ↔
      ¬ (Foreign c ∧ (ServedRaw path c ∨ TakenForVhd p path c)) := by
  by_cases hforeign : Foreign c
  · have hrule : (∃ e, Storage.open p path c = .err e) ↔
        ¬ (ServedRaw path c ∨ TakenForVhd p path c) := by
      unfold ServedRaw TakenForVhd
      cases hpath : extensionRule path with
      | raw =>
        have hdet : detectFormat path c = .ok .raw := by rw [detectFormat, hpath]
        rw [open_err_raw_iff hdet]
        simp
      | vhd =>
        rw [open_vhd_err_iff hpath]
        simp
      | vhdx =>
        have hdet : detectFormat path c = .ok .vhdx := by rw [detectFormat, hpath]
        simp [open_err_of_container (p := p) (Or.inl hdet)]
      | probe => simp [open_probe_foreign (p := p) hpath hforeign]
    constructor
    · rintro h ⟨-, hserved⟩
      exact hrule.mp (h hforeign) hserved
    · intro h _
      exact hrule.mpr fun hserved => h ⟨hforeign, hserved⟩
  · constructor
    · rintro - ⟨h, -⟩
      exact hforeign h
    · intro _ h
      exact absurd h hforeign

/-- One sector with the VHDX magic, named as a raw image. -/
theorem open_serves_vhdx :
    ¬ ∀ p path c, Foreign c → ∃ e, Storage.open p path c = .err e := by
  intro h
  let c : Content := ⟨vhdxSector, by decide +kernel⟩
  have hhead : HasVhdxHead c := by decide
  have hdet : detectFormat ⟨"disk.img", some "img"⟩ c = .ok .raw := by decide
  have herr := h .release ⟨"disk.img", some "img"⟩ c (Or.inl hhead)
  rw [open_err_raw_iff hdet] at herr
  exact herr (by decide +kernel)

end Storage
end HyperPod
