import HyperPod.Lib.Run
import HyperPod.Storage.Backend

/-!
# What one backend call does

For a backend whose sectors lie in its file (`SectorFile.Covers`), `serve` is
described by three equations: the answer of a call the host serves
(`toOption_serve`), the bytes of the file afterwards (`bytes_serve`), and the
sector count, which no call changes.  A call never panics (`serve_ne_panic`):
the byte offset of an accepted sector fits a `u64`.
-/

namespace HyperPod

open Machine Bytes HostFile

/-- A sector number in range and a buffer of one sector. -/
def Accepts (count sector : Nat) (buf : List UInt8) : Prop :=
  sector < count ∧ buf.length = sectorSize

instance (count sector : Nat) (buf : List UInt8) : Decidable (Accepts count sector buf) :=
  inferInstanceAs (Decidable (_ ∧ _))

/-- The byte offset of an accepted sector is a `u64`. -/
theorem Accepts.offset_lt {sectors : Sectors} {sector : Nat} {buf : List UInt8}
    (h : Accepts sectors.count sector buf) : sector * sectorSize < 2 ^ 64 :=
  Nat.lt_of_le_of_lt (Nat.mul_le_mul_right _ (Nat.le_of_lt h.1)) sectors.bytes_lt

/-- An accepted sector ends inside the sectors. -/
theorem Accepts.end_le {count sector : Nat} {buf : List UInt8} (h : Accepts count sector buf) :
    sector * sectorSize + sectorSize ≤ count * sectorSize := by
  have hs : (sector + 1) * sectorSize ≤ count * sectorSize := Nat.mul_le_mul_right _ h.1
  rwa [Nat.add_mul, Nat.one_mul] at hs

/-- An accepted write ends inside the sectors, however much of it the host moves. -/
theorem Accepts.take_end_le {count sector : Nat} {buf : List UInt8} (h : Accepts count sector buf)
    (io : Host) :
    sector * sectorSize + (buf.take (io.moved sectorSize)).length ≤ count * sectorSize := by
  have hend := h.end_le
  have hmoved := io.moved_le sectorSize
  rw [List.length_take]
  omega

namespace SectorFile

def bytes (d : SectorFile) : List UInt8 := d.file.content.bytes

/-- Every sector lies in the file. -/
def Covers (d : SectorFile) : Prop := d.sectors.count * sectorSize ≤ d.bytes.length

variable {readContext writeContext flushContext : String} {p : Profile} {io : Host}

/-! ## The two checks -/

theorem readSector_reject (readContext : String) (p : Profile) (io : Host) {sectors : Sectors}
    {sector : Nat} {buf : List UInt8} (h : ¬ Accepts sectors.count sector buf) (f : File) :
    ∃ e, (readSector readContext p io sectors sector buf).run f = (.err e, f) := by
  unfold readSector
  by_cases h1 : sector ≥ sectors.count
  · simp only [if_pos h1, Act.run_bail_bind]
    exact ⟨_, rfl⟩
  · have h2 : buf.length ≠ sectorSize := fun hb => h ⟨by omega, hb⟩
    simp only [if_neg h1, if_pos h2, Act.run_bail_bind]
    exact ⟨_, rfl⟩

theorem writeSector_reject (writeContext : String) (p : Profile) (io : Host) {sectors : Sectors}
    {sector : Nat} {buf : List UInt8} (h : ¬ Accepts sectors.count sector buf) (f : File) :
    ∃ e, (writeSector writeContext p io sectors sector buf).run f = (.err e, f) := by
  unfold writeSector
  by_cases h1 : sector ≥ sectors.count
  · simp only [if_pos h1, Act.run_bail_bind]
    exact ⟨_, rfl⟩
  · have h2 : buf.length ≠ sectorSize := fun hb => h ⟨by omega, hb⟩
    simp only [if_neg h1, if_pos h2, Act.run_bail_bind]
    exact ⟨_, rfl⟩

theorem readSector_accept {sectors : Sectors} {sector : Nat} {buf : List UInt8}
    (h : Accepts sectors.count sector buf) (f : File) :
    (readSector readContext p io sectors sector buf).run f =
      (do File.seek (sector * sectorSize)
          Act.context readContext (File.readExact io buf.length) : Act File _).run f := by
  have h1 : ¬ sector ≥ sectors.count := by have := h.1; omega
  have h2 : ¬ buf.length ≠ sectorSize := fun hb => hb h.2
  unfold readSector
  simp only [if_neg h1, if_neg h2, fit_eq_ok (h.offset_lt), Act.run_lift_ok_bind]

theorem writeSector_accept {sectors : Sectors} {sector : Nat} {buf : List UInt8}
    (h : Accepts sectors.count sector buf) (f : File) :
    (writeSector writeContext p io sectors sector buf).run f =
      (do File.seek (sector * sectorSize)
          Act.context writeContext (File.writeAll io buf) : Act File _).run f := by
  have h1 : ¬ sector ≥ sectors.count := by have := h.1; omega
  have h2 : ¬ buf.length ≠ sectorSize := fun hb => hb h.2
  unfold writeSector
  simp only [if_neg h1, if_neg h2, fit_eq_ok (h.offset_lt), Act.run_lift_ok_bind]

/-! ## The accepted transfers, for sectors that lie in the file -/

section
variable {sectors : Sectors} {sector : Nat} {buf : List UInt8} {f : File}
  (hcov : sectors.count * sectorSize ≤ f.content.len) (h : Accepts sectors.count sector buf)

include hcov h

theorem accepted_end_le : sector * sectorSize + buf.length ≤ f.content.len := by
  have hend := h.end_le
  rw [h.2]
  omega

theorem run_seek_accepted :
    (File.seek (sector * sectorSize)).run f = (.ok (), { f with pos := sector * sectorSize }) := by
  have hend := accepted_end_le hcov h
  have hlen := f.content.length_le
  unfold Content.len at hend
  exact File.run_seek (by omega) f

theorem run_readSector_serves :
    ((readSector readContext p .serves sectors sector buf).run f).1 =
      .ok (slice f.content.bytes (sector * sectorSize) sectorSize) := by
  rw [readSector_accept h, Act.run_bind_ok (run_seek_accepted hcov h), Act.run_context,
    File.run_readExact (accepted_end_le hcov h), h.2]
  rfl

theorem content_readSector :
    ((readSector readContext p io sectors sector buf).run f).2.content = f.content := by
  rw [readSector_accept h, Act.run_bind_ok (run_seek_accepted hcov h), Act.run_context]
  exact File.content_readExact io _ _

theorem readSector_ne_panic :
    ((readSector readContext p io sectors sector buf).run f).1 ≠ .panic := by
  rw [readSector_accept h, Act.run_bind_ok (run_seek_accepted hcov h), Act.run_context]
  simp only [File.readExact, ne_eq, withContext_eq_panic]
  split <;> simp

theorem run_writeSector_fst :
    ((writeSector writeContext p io sectors sector buf).run f).1 =
      withContext writeContext (if io = .serves then .ok () else .err .host) := by
  have hend := accepted_end_le hcov h
  have hlen := f.content.length_le
  unfold Content.len at hend
  rw [writeSector_accept h, Act.run_bind_ok (run_seek_accepted hcov h), Act.run_context,
    File.run_writeAll_fst (by simp only; omega)]

theorem bytes_writeSector :
    ((writeSector writeContext p io sectors sector buf).run f).2.content.bytes =
      splice f.content.bytes (sector * sectorSize) (buf.take (io.moved sectorSize)) := by
  have hend := accepted_end_le hcov h
  have hmoved := io.moved_le buf.length
  rw [writeSector_accept h, Act.run_bind_ok (run_seek_accepted hcov h), Act.run_context,
    File.content_writeAll, Content.put_inside (by rw [List.length_take]; simp only; omega), h.2]

end

/-! ## One call -/

/-- `serve` with the methods of both backends, at given contexts. -/
abbrev serveIn (readContext writeContext flushContext : String) :
    Profile → SectorFile → Request × Host → Result Reply × SectorFile :=
  serve (readSector readContext) (writeSector writeContext) (SectorFile.flush flushContext)

/-- What a call the host serves hands back. -/
def replyOf (count : Nat) (bytes : List UInt8) : Request → Option Reply
  | .read sector buf =>
    if Accepts count sector buf then some (.data (slice bytes (sector * sectorSize) sectorSize))
    else none
  | .write sector buf => if Accepts count sector buf then some .done else none
  | .flush => some .done

/-- The bytes of the file after a call. -/
def bytesAfter (count : Nat) (bytes : List UInt8) : Request × Host → List UInt8
  | (.read _ _, _) => bytes
  | (.write sector buf, io) =>
    if Accepts count sector buf then
      splice bytes (sector * sectorSize) (buf.take (io.moved sectorSize))
    else bytes
  | (.flush, _) => bytes

section
variable {readContext writeContext flushContext : String} {d : SectorFile}

theorem serve_sectors (d : SectorFile) (r : Request × Host) :
    (serveIn readContext writeContext flushContext p d r).2.sectors = d.sectors := by
  obtain ⟨req, io⟩ := r
  cases req <;> rfl

theorem serve_read (d : SectorFile) (sector : Nat) (buf : List UInt8) :
    serveIn readContext writeContext flushContext p d (.read sector buf, io) =
      (((readSector readContext p io d.sectors sector buf).run d.file).1.map .data,
        { d with file := ((readSector readContext p io d.sectors sector buf).run d.file).2 }) := by
  simp only [serveIn, serve, locked, Act.run_bind_pure]

theorem serve_write (d : SectorFile) (sector : Nat) (buf : List UInt8) :
    serveIn readContext writeContext flushContext p d (.write sector buf, io) =
      (((writeSector writeContext p io d.sectors sector buf).run d.file).1.map fun _ => .done,
        { d with
          file := ((writeSector writeContext p io d.sectors sector buf).run d.file).2 }) := by
  simp only [serveIn, serve, locked, Act.run_bind_pure]

theorem serve_flush (d : SectorFile) :
    serveIn readContext writeContext flushContext p d (.flush, io) = (.ok .done, d) := rfl

theorem bytes_serve (hcov : d.Covers) (r : Request × Host) :
    (serveIn readContext writeContext flushContext p d r).2.bytes =
      bytesAfter d.sectors.count d.bytes r := by
  obtain ⟨req, io⟩ := r
  cases req with
  | read sector buf =>
    rw [serve_read]
    by_cases h : Accepts d.sectors.count sector buf
    · exact congrArg Content.bytes (content_readSector hcov h)
    · obtain ⟨e, he⟩ := readSector_reject readContext p io h d.file
      rw [he]
      rfl
  | write sector buf =>
    rw [serve_write]
    by_cases h : Accepts d.sectors.count sector buf
    · rw [bytesAfter, if_pos h]
      exact bytes_writeSector hcov h
    · obtain ⟨e, he⟩ := writeSector_reject writeContext p io h d.file
      rw [he, bytesAfter, if_neg h]
  | flush => rfl

theorem toOption_serve (hcov : d.Covers) (req : Request) :
    (serveIn readContext writeContext flushContext p d (req, .serves)).1.toOption =
      replyOf d.sectors.count d.bytes req := by
  cases req with
  | read sector buf =>
    rw [serve_read, replyOf]
    by_cases h : Accepts d.sectors.count sector buf
    · rw [if_pos h, run_readSector_serves hcov h]
      rfl
    · obtain ⟨e, he⟩ := readSector_reject readContext p .serves h d.file
      rw [if_neg h, he]
      rfl
  | write sector buf =>
    rw [serve_write, replyOf]
    by_cases h : Accepts d.sectors.count sector buf
    · rw [if_pos h, run_writeSector_fst hcov h]
      rfl
    · obtain ⟨e, he⟩ := writeSector_reject writeContext p .serves h d.file
      rw [if_neg h, he]
      rfl
  | flush => rfl

/-- Whatever the host does, a call that names a sector succeeds only on a sector in range. -/
theorem accepts_of_serve_ok {sector : Nat} {buf : List UInt8} {req : Request} {a : Reply}
    (hreq : req = .read sector buf ∨ req = .write sector buf)
    (hok : (serveIn readContext writeContext flushContext p d (req, io)).1 = .ok a) :
    Accepts d.sectors.count sector buf := by
  apply Classical.byContradiction
  intro h
  rcases hreq with rfl | rfl
  · obtain ⟨e, he⟩ := readSector_reject readContext p io h d.file
    rw [serve_read, he] at hok
    cases hok
  · obtain ⟨e, he⟩ := writeSector_reject writeContext p io h d.file
    rw [serve_write, he] at hok
    cases hok

theorem serve_ne_panic (hcov : d.Covers) (r : Request × Host) :
    (serveIn readContext writeContext flushContext p d r).1 ≠ .panic := by
  obtain ⟨req, io⟩ := r
  cases req with
  | read sector buf =>
    rw [serve_read, ne_eq, Outcome.map_eq_panic]
    by_cases h : Accepts d.sectors.count sector buf
    · exact readSector_ne_panic hcov h
    · obtain ⟨e, he⟩ := readSector_reject readContext p io h d.file
      simp [he]
  | write sector buf =>
    rw [serve_write, ne_eq, Outcome.map_eq_panic]
    by_cases h : Accepts d.sectors.count sector buf
    · rw [run_writeSector_fst hcov h, withContext_eq_panic]
      split <;> simp
    · obtain ⟨e, he⟩ := writeSector_reject writeContext p io h d.file
      simp [he]
  | flush => simp [serve_flush]

end

/-! ## What every call keeps -/

theorem length_bytesAfter {count : Nat} {bytes : List UInt8}
    (hcov : count * sectorSize ≤ bytes.length) (r : Request × Host) :
    (bytesAfter count bytes r).length = bytes.length := by
  obtain ⟨req, io⟩ := r
  cases req with
  | read sector buf => rfl
  | write sector buf =>
    rw [bytesAfter]
    split
    · next h => exact length_splice (Nat.le_trans (h.take_end_le io) hcov)
    · rfl
  | flush => rfl

/-- No call touches the bytes after the last sector. -/
theorem slice_bytesAfter {count : Nat} {bytes : List UInt8} {a n : Nat}
    (hcov : count * sectorSize ≤ bytes.length) (ha : count * sectorSize ≤ a) (r : Request × Host) :
    slice (bytesAfter count bytes r) a n = slice bytes a n := by
  obtain ⟨req, io⟩ := r
  cases req with
  | read sector buf => rfl
  | write sector buf =>
    rw [bytesAfter]
    split
    · next h =>
      have hend := h.take_end_le io
      exact slice_splice_disjoint (by omega) (by omega)
    · rfl
  | flush => rfl

/-! ## Runs -/

section
variable {readContext writeContext flushContext : String} {d : SectorFile}

/-- What no call changes, for a backend opened as `d`. -/
structure Keeps (d d' : SectorFile) : Prop where
  covers : d'.Covers
  sectors : d'.sectors = d.sectors
  length : d'.bytes.length = d.bytes.length
  /-- the bytes after the last sector -/
  tail : ∀ a n, d.sectors.count * sectorSize ≤ a → slice d'.bytes a n = slice d.bytes a n

theorem Keeps.refl (hcov : d.Covers) : Keeps d d := ⟨hcov, rfl, rfl, fun _ _ _ => rfl⟩

theorem Keeps.serve {d' : SectorFile} (h : Keeps d d') (r : Request × Host) :
    Keeps d (serveIn readContext writeContext flushContext p d' r).2 := by
  have hlen : (serveIn readContext writeContext flushContext p d' r).2.bytes.length =
      d'.bytes.length := by
    rw [bytes_serve h.covers, length_bytesAfter h.covers]
  refine ⟨?_, by rw [serve_sectors, h.sectors], by rw [hlen, h.length], fun a n ha => ?_⟩
  · unfold Covers
    rw [serve_sectors, hlen]
    exact h.covers
  · rw [bytes_serve h.covers, slice_bytesAfter h.covers (by rw [h.sectors]; exact ha),
      h.tail a n ha]

theorem keeps_final (readContext writeContext flushContext : String) (p : Profile)
    (hcov : d.Covers) (rs : List (Request × Host)) :
    Keeps d (Run.final (serveIn readContext writeContext flushContext p) d rs) :=
  Run.final_invariant (fun _ r h => h.serve r) (Keeps.refl hcov) rs

/-! ## A sector that is served -/

theorem read_accepted (hcov : d.Covers) {sector : Nat} {buf : List UInt8}
    (h : Accepts d.sectors.count sector buf) :
    (serveIn readContext writeContext flushContext p d (.read sector buf, .serves)).1 =
      .ok (.data (slice d.bytes (sector * sectorSize) sectorSize)) := by
  have hreply : (serveIn readContext writeContext flushContext p d
      (.read sector buf, .serves)).1.toOption = _ := toOption_serve hcov _
  rw [replyOf, if_pos h] at hreply
  exact Outcome.toOption_eq_some.mp hreply

theorem write_accepted (hcov : d.Covers) {sector : Nat} {buf : List UInt8}
    (h : Accepts d.sectors.count sector buf) :
    (serveIn readContext writeContext flushContext p d (.write sector buf, .serves)).1 =
      .ok .done := by
  have hreply : (serveIn readContext writeContext flushContext p d
      (.write sector buf, .serves)).1.toOption = _ := toOption_serve hcov _
  rw [replyOf, if_pos h] at hreply
  exact Outcome.toOption_eq_some.mp hreply

/-- A sector that was written reads back as written. -/
theorem read_after_write (hcov : d.Covers) {sector : Nat} {buf : List UInt8}
    (h : Accepts d.sectors.count sector buf) :
    (serveIn readContext writeContext flushContext p
      (serveIn readContext writeContext flushContext p d (.write sector buf, .serves)).2
      (.read sector buf, .serves)).1 = .ok (.data buf) := by
  have hkeep : Keeps d
      (serveIn readContext writeContext flushContext p d (.write sector buf, .serves)).2 :=
    (Keeps.refl hcov).serve _
  have hend := h.end_le
  have hoff : sector * sectorSize ≤ d.bytes.length := by
    unfold Covers at hcov
    omega
  have htake : buf.take (Host.moved .serves sectorSize) = buf :=
    List.take_of_length_le (Nat.le_of_eq h.2)
  have hself := slice_splice_self buf hoff
  rw [h.2] at hself
  rw [read_accepted hkeep.covers (by rw [hkeep.sectors]; exact h), bytes_serve hcov, bytesAfter,
    if_pos h, htake, hself]

end
end SectorFile
end HyperPod
