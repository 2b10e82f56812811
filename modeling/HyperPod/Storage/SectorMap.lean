import HyperPod.Lib.BlockStore
import HyperPod.Storage.VhdContainment

/-!
# Both backends serve one sector map

The abstract disk is a map from sector number to a block of 512 bytes.  A backend
whose file holds the map answers every call as the map does and holds the
updated map afterwards (`serve_simulates`), so a raw image and a fixed VHD of the
same payload cannot be told apart by any run (`backends_refine_sectorMap`).
-/

namespace HyperPod

open Machine Bytes HostFile BlockStore

abbrev SectorMap (k : Nat) := Store UInt8 sectorSize k

namespace SectorMap

variable {k : Nat}

/-- A call on the abstract disk; `none` is a rejection. -/
def serve (m : SectorMap k) : Request → Option Reply × SectorMap k
  | .read sector buf =>
    if h : Accepts k sector buf then (some (.data (m ⟨sector, h.1⟩).val), m) else (none, m)
  | .write sector buf =>
    if h : Accepts k sector buf then
      (some .done, Function.update m ⟨sector, h.1⟩ ⟨buf, h.2⟩)
    else (none, m)
  | .flush => (some .done, m)

/-- The same value, or an error where the disk rejects. -/
def Agrees (a : Result Reply) : Option Reply → Prop
  | some reply => a = .ok reply
  | none => ∃ e, a = .err e

end SectorMap

namespace SectorFile

variable {readContext writeContext flushContext : String} {p : Profile} {k : Nat}

/-- The backend's file holds the map. -/
structure Represents (d : SectorFile) (m : SectorMap k) : Prop where
  count : d.sectors.count = k
  holds : Holds d.bytes m

theorem Represents.covers {d : SectorFile} {m : SectorMap k} (h : Represents d m) : d.Covers := by
  unfold Covers
  rw [h.count]
  exact h.holds.fits

/-- `serve` with a host that serves every transfer. -/
abbrev serveAll (readContext writeContext flushContext : String) (p : Profile) (d : SectorFile)
    (req : Request) : Result Reply × SectorFile :=
  serveIn readContext writeContext flushContext p d (req, .serves)

theorem agrees_of_toOption {a : Result Reply} {o : Option Reply} (hne : a ≠ .panic)
    (h : a.toOption = o) : SectorMap.Agrees a o := by
  subst h
  cases a with
  | ok r => rfl
  | err e => exact ⟨e, rfl⟩
  | panic => exact absurd rfl hne

/-- The map replies as the bytes that hold it. -/
theorem reply_serve {bytes : List UInt8} {m : SectorMap k} (h : Holds bytes m) (req : Request) :
    replyOf k bytes req = (m.serve req).1 := by
  cases req with
  | read sector buf =>
    unfold replyOf SectorMap.serve
    by_cases ha : Accepts k sector buf
    · simp only [if_pos ha, dif_pos ha]
      rw [h.block ⟨sector, ha.1⟩]
    · simp only [if_neg ha, dif_neg ha]
  | write sector buf =>
    unfold replyOf SectorMap.serve
    by_cases ha : Accepts k sector buf
    · simp only [if_pos ha, dif_pos ha]
    · simp only [if_neg ha, dif_neg ha]
  | flush => rfl

/-- The bytes after a call hold the map after it. -/
theorem holds_serve {bytes : List UInt8} {m : SectorMap k} (h : Holds bytes m) (req : Request) :
    Holds (bytesAfter k bytes (req, .serves)) (m.serve req).2 := by
  cases req with
  | read sector buf =>
    unfold bytesAfter SectorMap.serve
    by_cases ha : Accepts k sector buf
    · simp only [dif_pos ha]
      exact h
    · simp only [dif_neg ha]
      exact h
  | write sector buf =>
    unfold bytesAfter SectorMap.serve
    by_cases ha : Accepts k sector buf
    · have htake : buf.take sectorSize = buf := List.take_of_length_le (Nat.le_of_eq ha.2)
      simp only [if_pos ha, dif_pos ha, Host.moved, htake]
      exact h.write ⟨sector, ha.1⟩ ⟨buf, ha.2⟩
    · simp only [if_neg ha, dif_neg ha]
      exact h
  | flush => exact h

theorem serve_simulates (d : SectorFile) (m : SectorMap k) (req : Request) (h : Represents d m) :
    SectorMap.Agrees (serveAll readContext writeContext flushContext p d req).1 (m.serve req).1 ∧
      Represents (serveAll readContext writeContext flushContext p d req).2 (m.serve req).2 := by
  have hcov := h.covers
  constructor
  · apply agrees_of_toOption (serve_ne_panic hcov _)
    rw [toOption_serve hcov, h.count]
    exact reply_serve h.holds req
  · refine ⟨by rw [serve_sectors, h.count], ?_⟩
    rw [bytes_serve hcov, h.count]
    exact holds_serve h.holds req

theorem run_simulates (readContext writeContext flushContext : String) (p : Profile)
    {d : SectorFile} {m : SectorMap k} (h : Represents d m)
    (reqs : List Request) :
    List.Forall₂ SectorMap.Agrees
        (Run.answers (serveAll readContext writeContext flushContext p) d reqs)
        (Run.answers SectorMap.serve m reqs) ∧
      Represents (Run.final (serveAll readContext writeContext flushContext p) d reqs)
        (Run.final SectorMap.serve m reqs) :=
  Run.simulation (fun d m req h => serve_simulates d m req h) h reqs

/-- A rejected call leaves every byte. -/
theorem bytes_of_serve_err {d : SectorFile} {m : SectorMap k} (h : Represents d m) {req : Request}
    {e : Error} (he : (serveAll readContext writeContext flushContext p d req).1 = .err e) :
    (serveAll readContext writeContext flushContext p d req).2.bytes = d.bytes := by
  have hreply : (serveAll readContext writeContext flushContext p d req).1.toOption =
      replyOf d.sectors.count d.bytes req := toOption_serve h.covers req
  rw [he, Outcome.toOption_err] at hreply
  rw [bytes_serve h.covers]
  cases req with
  | read sector buf => rfl
  | write sector buf =>
    rw [replyOf] at hreply
    rw [bytesAfter]
    split
    · next ha =>
      rw [if_pos ha] at hreply
      cases hreply
    · rfl
  | flush => rfl

end SectorFile

/-! ## Opening an image of `k` sectors -/

/-- 512 bytes that `VhdFixedBackend::open` takes for the footer of a fixed VHD of `size` bytes. -/
structure IsFixedFooter (footer : List UInt8) (size : Nat) : Prop where
  length : footer.length = VhdFixedBackend.footerLen
  cookie : footer.take 8 = VhdFixedBackend.footerCookie
  diskType : VhdFixedBackend.diskType footer = VhdFixedBackend.diskTypeFixed
  size : (VhdFixedBackend.originalSize footer).toNat = size

section
variable {k : Nat} {payload footer : List UInt8}

theorem raw_open (path : Path) {c : Content} (hk : 1 ≤ k) (hpay : payload.length = k * sectorSize)
    (hc : c.bytes = payload) :
    ∃ b, RawBackend.open path c = .ok b ∧ b.sectors.count = k ∧ b.bytes = payload := by
  have hlen : c.len = k * sectorSize := by rw [Content.len, hc, hpay]
  have hpos : ¬ c.len = 0 := by
    rw [hlen]
    unfold sectorSize
    omega
  have hmod : ¬ c.len % sectorSize ≠ 0 := by
    rw [hlen, Nat.mul_mod_left]
    simp
  refine ⟨⟨File.ofContent c, Sectors.ofSize (UInt64.ofNat c.len)⟩,
    by rw [RawBackend.open, if_neg hpos, if_neg hmod], ?_, hc⟩
  have hlt := c.len_lt
  have hnat : (UInt64.ofNat c.len).toNat = c.len := by
    rw [UInt64.toNat_ofNat']
    exact Nat.mod_eq_of_lt (by omega)
  show (UInt64.ofNat c.len).toNat / sectorSize = k
  rw [hnat, hlen]
  exact Nat.mul_div_cancel k (by decide)

theorem footerOf_append {c : Content} (hfoot : footer.length = VhdFixedBackend.footerLen)
    (hc : c.bytes = payload ++ footer) : VhdFixedBackend.footerOf c = footer := by
  have hlen : c.len = payload.length + VhdFixedBackend.footerLen := by
    rw [Content.len, hc, List.length_append, hfoot]
  rw [VhdFixedBackend.footerOf, hlen, Nat.add_sub_cancel, hc, slice_append_right, ← hfoot,
    List.take_length]

theorem vhd_open (p : Profile) (path : Path) {c : Content} (hk : 1 ≤ k)
    (hpay : payload.length = k * sectorSize) (hfoot : IsFixedFooter footer (k * sectorSize))
    (hc : c.bytes = payload ++ footer) :
    ∃ b, VhdFixedBackend.open p path c = .ok b ∧ b.sectors.count = k ∧
      b.bytes = payload ++ footer := by
  have hlen : c.len = k * sectorSize + VhdFixedBackend.footerLen := by
    rw [Content.len, hc, List.length_append, hpay, hfoot.length]
  have hfooter := footerOf_append hfoot.length hc
  have hlt := c.len_lt
  have hne : VhdFixedBackend.originalSize footer ≠ 0 := by
    intro h0
    have hsize := hfoot.size
    rw [h0] at hsize
    simp only [sectorSize, UInt64.toNat_zero] at hsize
    omega
  have hchk : VhdFixedBackend.checkFooter p path c.len footer =
      .ok (Sectors.ofSize (VhdFixedBackend.originalSize footer)) := by
    refine VhdFixedBackend.checkFooter_eq_ok.mpr ⟨hfoot.cookie, hfoot.diskType, hne,
      ⟨c.len, ?_, Nat.le_refl _⟩, ?_, rfl⟩
    · rw [hfoot.size, ← hlen]
      exact fit_eq_ok (by omega)
    · rw [hfoot.size, Nat.mul_mod_left]
  refine ⟨⟨⟨c, c.len⟩, Sectors.ofSize (VhdFixedBackend.originalSize footer)⟩,
    by rw [VhdFixedBackend.open_eq (by omega), hfooter, hchk]; rfl, ?_, hc⟩
  simp only [Sectors.ofSize, hfoot.size]
  exact Nat.mul_div_cancel k (by decide)

end

/-- **One sector map.**  A raw image of a payload of `k` sectors, and the payload
followed by a fixed-VHD footer of that size, open as `k` sectors; in every run both
answer each call as the sector map of the payload does, and a rejected call
changes no byte. -/
theorem backends_refine_sectorMap (p : Profile) (rawPath vhdPath : Path) (k : Nat) (hk : 1 ≤ k)
    (payload footer : List UInt8) (hpay : payload.length = k * sectorSize)
    (hfoot : IsFixedFooter footer (k * sectorSize)) (rawFile vhdFile : Content)
    (hraw : rawFile.bytes = payload) (hvhd : vhdFile.bytes = payload ++ footer) :
    ∃ raw vhd, RawBackend.open rawPath rawFile = .ok raw ∧
      VhdFixedBackend.open p vhdPath vhdFile = .ok vhd ∧
      raw.sectors.count = k ∧ vhd.sectors.count = k ∧
      ∀ reqs : List Request,
        let rawServe := fun d req => RawBackend.serve p d (req, .serves)
        let vhdServe := fun d req => VhdFixedBackend.serve p d (req, .serves)
        let spec := Run.answers SectorMap.serve (ofList payload (Nat.le_of_eq hpay.symm)) reqs
        List.Forall₂ SectorMap.Agrees (Run.answers rawServe raw reqs) spec ∧
        List.Forall₂ SectorMap.Agrees (Run.answers vhdServe vhd reqs) spec ∧
        (∀ req e, (rawServe (Run.final rawServe raw reqs) req).1 = .err e →
          (rawServe (Run.final rawServe raw reqs) req).2.bytes =
            (Run.final rawServe raw reqs).bytes) ∧
        (∀ req e, (vhdServe (Run.final vhdServe vhd reqs) req).1 = .err e →
          (vhdServe (Run.final vhdServe vhd reqs) req).2.bytes =
            (Run.final vhdServe vhd reqs).bytes) := by
  obtain ⟨raw, hrawOpen, hrawCount, hrawBytes⟩ := raw_open rawPath hk hpay hraw
  obtain ⟨vhd, hvhdOpen, hvhdCount, hvhdBytes⟩ :=
    vhd_open p vhdPath hk hpay hfoot hvhd
  have hholds := holds_ofList payload (Nat.le_of_eq hpay.symm)
  have hrawRep : SectorFile.Represents raw (ofList payload (Nat.le_of_eq hpay.symm)) :=
    ⟨hrawCount, by rw [hrawBytes]; exact hholds⟩
  have hvhdRep : SectorFile.Represents vhd (ofList payload (Nat.le_of_eq hpay.symm)) :=
    ⟨hvhdCount, by rw [hvhdBytes]; exact hholds.append footer⟩
  refine ⟨raw, vhd, hrawOpen, hvhdOpen, hrawCount, hvhdCount, fun reqs => ?_⟩
  obtain ⟨hrawAns, hrawFinal⟩ := SectorFile.run_simulates "read_sector" "write_sector"
    "flush rootfs" p hrawRep reqs
  obtain ⟨hvhdAns, hvhdFinal⟩ := SectorFile.run_simulates "vhd read_sector" "vhd write_sector"
    "vhd flush" p hvhdRep reqs
  exact ⟨hrawAns, hvhdAns, fun req e he => SectorFile.bytes_of_serve_err hrawFinal he,
    fun req e he => SectorFile.bytes_of_serve_err hvhdFinal he⟩

/-- A sector of ones and a sector of twos. -/
def onesAndTwos : List UInt8 := List.replicate 512 1 ++ List.replicate 512 2

theorem length_onesAndTwos : onesAndTwos.length = 2 * sectorSize := by
  unfold onesAndTwos sectorSize
  rw [List.length_append, List.length_replicate, List.length_replicate]

def rawDisk : Content := ⟨onesAndTwos, by rw [length_onesAndTwos]; decide⟩

/-- The same payload with the footer of the tests' fixed VHD. -/
def vhdDisk : Content where
  bytes := onesAndTwos ++ VhdFixedBackend.makeFooter 1024 2
  length_le := by
    rw [List.length_append, length_onesAndTwos, VhdFixedBackend.length_makeFooter]
    decide

/-- Both sectors are read, the first after it was overwritten; there is no third one. -/
def fiveCalls : List Request :=
  [.read 1 (List.replicate 512 0), .write 0 (List.replicate 512 7), .read 0 (List.replicate 512 0),
    .write 2 (List.replicate 512 7), .flush]

def fiveAnswers : List (Option Reply) :=
  [some (.data (List.replicate 512 2)), some .done, some (.data (List.replicate 512 7)), none,
    some .done]

theorem backends_refine_sectorMap_twoSectors :
    let rawServe := fun d req => RawBackend.serve .debug d (req, .serves)
    let vhdServe := fun d req => VhdFixedBackend.serve .debug d (req, .serves)
    ∃ raw vhd, RawBackend.open ⟨"disk.raw", some "raw"⟩ rawDisk = .ok raw ∧
      VhdFixedBackend.open .debug ⟨"disk.vhd", some "vhd"⟩ vhdDisk = .ok vhd ∧
      raw.sectors.count = 2 ∧ vhd.sectors.count = 2 ∧
      List.Forall₂ SectorMap.Agrees (Run.answers rawServe raw fiveCalls) fiveAnswers ∧
      List.Forall₂ SectorMap.Agrees (Run.answers vhdServe vhd fiveCalls) fiveAnswers ∧
      (∀ req e, (rawServe (Run.final rawServe raw fiveCalls) req).1 = .err e →
        (rawServe (Run.final rawServe raw fiveCalls) req).2.bytes =
          (Run.final rawServe raw fiveCalls).bytes) ∧
      (∀ req e, (vhdServe (Run.final vhdServe vhd fiveCalls) req).1 = .err e →
        (vhdServe (Run.final vhdServe vhd fiveCalls) req).2.bytes =
          (Run.final vhdServe vhd fiveCalls).bytes) := by
  have hfoot : IsFixedFooter (VhdFixedBackend.makeFooter 1024 2) (2 * sectorSize) :=
    ⟨VhdFixedBackend.length_makeFooter _ _, by decide +kernel, by decide +kernel, by decide +kernel⟩
  have hspec : Run.answers SectorMap.serve
      (ofList onesAndTwos (Nat.le_of_eq length_onesAndTwos.symm)) fiveCalls = fiveAnswers := by
    decide +kernel
  intro rawServe vhdServe
  obtain ⟨raw, vhd, hraw, hvhd, hrawCount, hvhdCount, hruns⟩ :=
    backends_refine_sectorMap .debug ⟨"disk.raw", some "raw"⟩ ⟨"disk.vhd", some "vhd"⟩ 2
      (by decide) onesAndTwos (VhdFixedBackend.makeFooter 1024 2) length_onesAndTwos hfoot rawDisk
      vhdDisk rfl rfl
  have hfive := hruns fiveCalls
  rw [hspec] at hfive
  exact ⟨raw, vhd, hraw, hvhd, hrawCount, hvhdCount, hfive⟩

end HyperPod
