import HyperPod.Storage.VhdContainment

/-!
# Format detection and the dispatcher: `storage/mod.rs`

`detectFormat` goes by the extension where the table knows it and probes the
content otherwise: the head for the VHDX magic, the last 512 bytes for the VHD
cookie.  `Storage.open` detects and then opens the backend of that format, which
reads the file again.

What detection answers depends on three parts of the content only: its length,
its first 8 bytes and its last 512 (`classifyVhd_eq_ok`, `run_probeContent`).
-/

namespace HyperPod

open Machine Bytes HostFile

inductive Format where
  | raw
  | vhdFixed
  | vhdDynamic
  | vhdx
deriving Repr, DecidableEq

namespace Storage

/-- `b"conectix"` -/
def vhdFooterCookie : List UInt8 := [0x63, 0x6f, 0x6e, 0x65, 0x63, 0x74, 0x69, 0x78]

/-- `b"vhdxfile"` -/
def vhdxHeadMagic : List UInt8 := [0x76, 0x68, 0x64, 0x78, 0x66, 0x69, 0x6c, 0x65]

def toAsciiLowercase (s : String) : String := String.ofList (s.toList.map Char.toLower)

/-- The arms of the extension table. -/
inductive ExtensionRule where
  | raw
  | vhd
  | vhdx
  | probe
deriving Repr, DecidableEq

def extensionRule (path : Path) : ExtensionRule :=
  match path.extension with
  | none => .probe
  | some ext =>
    let ext := toAsciiLowercase ext
    if ext = "raw" ∨ ext = "img" ∨ ext = "ext4" then .raw
    else if ext = "vhd" then .vhd
    else if ext = "vhdx" then .vhdx
    else .probe

/-- `classify_vhd` on the opened file. -/
def classifyVhd (path : Path) : Act File Format := do
  let total ← File.len
  if total < 512 then
    Act.bail s!"{path.display} is too small to be a VHD (no footer)"
  File.seek (total - 512)
  let footer ← Act.context "read VHD footer" (File.readExact .serves 512)
  if footer.take 8 ≠ vhdFooterCookie then
    Act.bail s!"{path.display} has no VHD footer cookie"
  let diskType := beVal (slice footer 60 4)
  if diskType = 2 then return .vhdFixed
  else if diskType = 3 ∨ diskType = 4 then return .vhdDynamic
  else Act.bail s!"VHD disk_type {diskType} is not supported"

/-- The part of `detect_format` after the extension table. -/
def probeContent (path : Path) : Act File Format := do
  let head ← Act.context "read disk image header" (File.read 8)
  if head.length ≥ 8 ∧ head = vhdxHeadMagic then return .vhdx
  else
    let total ← File.len
    if total ≥ 512 then
      File.seek (total - 512)
      let cookie ← File.readExact .serves 8
      if cookie = vhdFooterCookie then
        let f ← Act.get
        Act.lift ((classifyVhd path).run (File.ofContent f.content)).1
      else return .raw
    else return .raw

def detectFormat (path : Path) (c : Content) : Result Format :=
  match extensionRule path with
  | .raw => .ok .raw
  | .vhd => ((classifyVhd path).run (File.ofContent c)).1
  | .vhdx => .ok .vhdx
  | .probe => ((probeContent path).run (File.ofContent c)).1

end Storage

/-- Open the backing file as a block backend, dispatching by format. -/
def Storage.open (p : Profile) (path : Path) (c : Content) : Result BlockBackend := do
  match ← Storage.detectFormat path c with
  | .raw => return .raw (← RawBackend.open path c)
  | .vhdFixed => return .vhdFixed (← VhdFixedBackend.open p path c)
  | .vhdDynamic => .err (.msg (s!"{path.display} is a dynamic VHD; HyperPod 0.1.x only supports " ++
      "fixed VHD. Convert with `qemu-img convert -O vpc -o subformat=fixed`."))
  | .vhdx => .err (.msg (s!"{path.display} is VHDX; HyperPod 0.1.x does not yet support VHDX. " ++
      "Convert with `qemu-img convert -O raw` or `-O vpc -o subformat=fixed`."))

namespace Storage

/-! ## What the probes see -/

open VhdFixedBackend (footerOf footerLen diskType)

/-- The content begins with the VHDX magic. -/
def HasVhdxHead (c : Content) : Prop := c.bytes.take 8 = vhdxHeadMagic

/-- The last 512 bytes begin with the VHD cookie. -/
def HasVhdCookie (c : Content) : Prop := footerLen ≤ c.len ∧ (footerOf c).take 8 = vhdFooterCookie

instance (c : Content) : Decidable (HasVhdxHead c) := inferInstanceAs (Decidable (_ = _))
instance (c : Content) : Decidable (HasVhdCookie c) := inferInstanceAs (Decidable (_ ∧ _))

/-- The cookie the head of the footer shows is the one a read of 8 bytes finds. -/
theorem take_footerOf (c : Content) :
    (footerOf c).take 8 = slice c.bytes (c.len - footerLen) 8 := by
  have h0 : (footerOf c).take 8 = slice (footerOf c) 0 8 := by rw [slice, List.drop_zero]
  unfold footerOf footerLen at *
  rw [h0, slice_slice (by omega), Nat.add_zero]

theorem run_classifyVhd_small (path : Path) (f : File) (h : f.content.len < 512) :
    ∃ e, (classifyVhd path).run f = (.err e, f) := by
  unfold classifyVhd
  simp only [File.run_len_bind, if_pos h, Act.run_bail_bind]
  exact ⟨_, rfl⟩

/-- The end of `classify_vhd`, on the footer it read. -/
theorem run_classifyVhd {path : Path} {f : File} (h : 512 ≤ f.content.len) :
    ((classifyVhd path).run f).1 =
      if (footerOf f.content).take 8 ≠ vhdFooterCookie then
        .err (.msg s!"{path.display} has no VHD footer cookie")
      else if diskType (footerOf f.content) = 2 then .ok .vhdFixed
      else if diskType (footerOf f.content) = 3 ∨ diskType (footerOf f.content) = 4 then
        .ok .vhdDynamic
      else .err (.msg s!"VHD disk_type {diskType (footerOf f.content)} is not supported") := by
  have hsmall : ¬ f.content.len < 512 := by omega
  have hseek : (File.seek (f.content.len - 512)).run f =
      (.ok (), ⟨f.content, f.content.len - 512⟩) :=
    File.run_seek (by have := f.content.length_le; unfold Content.len; omega) f
  have hread : (Act.context "read VHD footer" (File.readExact .serves 512)).run
      ⟨f.content, f.content.len - 512⟩ =
        (.ok (footerOf f.content), ⟨f.content, f.content.len⟩) := by
    rw [Act.run_context, File.run_readExact (by simp only; omega)]
    simp only [withContext_ok, footerOf, footerLen, Nat.sub_add_cancel h]
  unfold classifyVhd
  simp only [File.run_len_bind, if_neg hsmall, Act.run_bind_ok hseek, Act.run_bind_ok hread]
  unfold diskType
  split
  · rfl
  · split
    · rfl
    · split <;> rfl

/-- `classify_vhd` answers by the footer alone. -/
theorem classifyVhd_eq_ok (path : Path) (f : File) (fmt : Format) :
    ((classifyVhd path).run f).1 = .ok fmt ↔ HasVhdCookie f.content ∧
      (diskType (footerOf f.content) = 2 ∧ fmt = .vhdFixed ∨
        (diskType (footerOf f.content) = 3 ∨ diskType (footerOf f.content) = 4) ∧
          fmt = .vhdDynamic) := by
  by_cases hlen : 512 ≤ f.content.len
  · rw [run_classifyVhd hlen]
    by_cases hc : (footerOf f.content).take 8 = vhdFooterCookie
    · have hcookie : HasVhdCookie f.content := ⟨hlen, hc⟩
      by_cases h2 : diskType (footerOf f.content) = 2
      · simp [hc, hcookie, h2, @eq_comm _ fmt]
      · by_cases h3 : diskType (footerOf f.content) = 3 ∨ diskType (footerOf f.content) = 4
        · simp [hc, hcookie, h2, h3, @eq_comm _ fmt]
        · simp [hc, hcookie, h2, h3]
    · have hcookie : ¬ HasVhdCookie f.content := fun h => hc h.2
      simp [hc, hcookie]
  · obtain ⟨e, he⟩ := run_classifyVhd_small path f (by omega)
    have hcookie : ¬ HasVhdCookie f.content := fun h => hlen h.1
    simp [he, hcookie]

theorem classifyVhd_ne_panic {path : Path} {f : File} : ((classifyVhd path).run f).1 ≠ .panic := by
  by_cases hlen : 512 ≤ f.content.len
  · rw [run_classifyVhd hlen]
    split
    · simp
    · split
      · simp
      · split <;> simp
  · obtain ⟨e, he⟩ := run_classifyVhd_small path f (by omega)
    simp [he]

theorem run_head (f : File) :
    (Act.context "read disk image header" (File.read 8)).run (File.ofContent f.content) =
      (.ok (f.content.bytes.take 8), ⟨f.content, (f.content.bytes.take 8).length⟩) := by
  simp [File.read, File.ofContent, slice]

/-- A file whose head is the VHDX magic. -/
theorem run_probeContent_vhdx {path : Path} {f : File} (h : HasVhdxHead f.content) :
    ((probeContent path).run (File.ofContent f.content)).1 = .ok .vhdx := by
  unfold probeContent
  rw [Act.run_bind_ok (run_head f)]
  simp only [show f.content.bytes.take 8 = vhdxHeadMagic from h]
  rfl

/-- Any other file is classified by its footer, if that has the cookie, and raw otherwise. -/
theorem run_probeContent {path : Path} {f : File} (h : ¬ HasVhdxHead f.content) :
    ((probeContent path).run (File.ofContent f.content)).1 =
      if HasVhdCookie f.content then ((classifyVhd path).run (File.ofContent f.content)).1
      else .ok .raw := by
  have hhead : ¬ ((f.content.bytes.take 8).length ≥ 8 ∧ f.content.bytes.take 8 = vhdxHeadMagic) :=
    fun hc => h hc.2
  unfold probeContent
  rw [Act.run_bind_ok (run_head f)]
  simp only [if_neg hhead, File.run_len_bind]
  by_cases hlen : f.content.len ≥ 512
  · have hseek (pos : Nat) : (File.seek (f.content.len - 512)).run ⟨f.content, pos⟩ =
        (.ok (), ⟨f.content, f.content.len - 512⟩) :=
      File.run_seek (by have := f.content.length_le; unfold Content.len; omega) _
    have hread : (File.readExact .serves 8).run ⟨f.content, f.content.len - 512⟩ =
        (.ok ((footerOf f.content).take 8), ⟨f.content, f.content.len - 512 + 8⟩) := by
      rw [File.run_readExact (by simp only; omega), take_footerOf, footerLen]
    simp only [if_pos hlen, Act.run_bind_ok (hseek _), Act.run_bind_ok hread]
    by_cases hc : (footerOf f.content).take 8 = vhdFooterCookie
    · have hcookie : HasVhdCookie f.content := ⟨hlen, hc⟩
      simp only [if_pos hc, if_pos hcookie, Act.run_get_bind, Act.run_lift]
    · have hcookie : ¬ HasVhdCookie f.content := fun h => hc h.2
      simp only [if_neg hc, if_neg hcookie]
      rfl
  · have hcookie : ¬ HasVhdCookie f.content := fun hc => hlen hc.1
    simp only [if_neg hlen, if_neg hcookie]
    rfl

/-- **Detection by content**, for a path the extension table does not know. -/
theorem detectFormat_probe {path : Path} {c : Content} (hpath : extensionRule path = .probe) :
    detectFormat path c =
      if HasVhdxHead c then .ok .vhdx
      else if HasVhdCookie c then ((classifyVhd path).run (File.ofContent c)).1
      else .ok .raw := by
  rw [detectFormat, hpath]
  by_cases h : HasVhdxHead c
  · rw [if_pos h]
    exact run_probeContent_vhdx (f := File.ofContent c) h
  · rw [if_neg h]
    exact run_probeContent (f := File.ofContent c) h

theorem detectFormat_ne_panic {path : Path} {c : Content} : detectFormat path c ≠ .panic := by
  cases hpath : extensionRule path with
  | raw => simp [detectFormat, hpath]
  | vhd =>
    simp only [detectFormat, hpath]
    exact classifyVhd_ne_panic
  | vhdx => simp [detectFormat, hpath]
  | probe =>
    rw [detectFormat_probe hpath]
    split
    · simp
    · split
      · exact classifyVhd_ne_panic
      · simp

/-! ## What `open` returns -/

theorem open_eq_ok {p : Profile} {path : Path} {c : Content} {be : BlockBackend} :
    Storage.open p path c = .ok be ↔
      (detectFormat path c = .ok .raw ∧ ∃ b, RawBackend.open path c = .ok b ∧ be = .raw b) ∨
      (detectFormat path c = .ok .vhdFixed ∧
        ∃ b, VhdFixedBackend.open p path c = .ok b ∧ be = .vhdFixed b) := by
  unfold Storage.open
  cases hd : detectFormat path c with
  | ok fmt =>
    cases fmt <;> simp [Outcome.bind_eq_ok, @eq_comm _ be]
  | err e => simp
  | panic => simp

end Storage
end HyperPod
