import HyperPod.Lib.Bytes
import HyperPod.Lib.Outcome

/-!
# A file of the host

The content is a byte string no longer than the largest file offset; an open
file adds the position that reads, writes and seeks share.  Inside the file a
transfer the host serves succeeds.  A write past the end extends the file, the
gap filled with zeros.  `Host` lets a transfer fail half way: a failed write
leaves the bytes already moved in the file.
-/

namespace HostFile

open Machine Bytes

/-- Largest file offset of the host, `i64::MAX`. -/
def maxOffset : Nat := 2 ^ 63 - 1

structure Content where
  bytes : List UInt8
  length_le : bytes.length ≤ maxOffset

namespace Content

def len (c : Content) : Nat := c.bytes.length

theorem len_lt (c : Content) : c.len < 2 ^ 63 := by
  have := c.length_le
  unfold maxOffset at this
  unfold len
  omega

/-- The bytes after a write of `data` at `off`. -/
def written (bytes : List UInt8) (off : Nat) (data : List UInt8) : List UInt8 :=
  if data = [] then bytes
  else splice (bytes ++ List.replicate (off - bytes.length) 0) off data

theorem length_written (bytes : List UInt8) (off : Nat) (data : List UInt8) :
    (written bytes off data).length ≤ max bytes.length (off + data.length) := by
  unfold written
  split
  · omega
  · simp only [splice, List.length_append, List.length_take, List.length_drop,
      List.length_replicate]
    omega

theorem written_inside {bytes : List UInt8} {off : Nat} {data : List UInt8}
    (h : off + data.length ≤ bytes.length) : written bytes off data = splice bytes off data := by
  unfold written
  split
  · next hd => subst hd; simp [splice]
  · rw [Nat.sub_eq_zero_of_le (by omega), List.replicate_zero, List.append_nil]

/-- The first `maxOffset - off` bytes of `data` written at `off`. -/
def put (c : Content) (off : Nat) (data : List UInt8) : Content where
  bytes := written c.bytes off (data.take (maxOffset - off))
  length_le := by
    have h1 := length_written c.bytes off (data.take (maxOffset - off))
    have h2 := c.length_le
    by_cases hoff : off ≤ maxOffset
    · rw [List.length_take] at h1
      omega
    · have hnil : data.take (maxOffset - off) = [] := by
        rw [Nat.sub_eq_zero_of_le (by omega), List.take_zero]
      rw [hnil, written, if_pos rfl]
      exact h2

theorem put_inside {c : Content} {off : Nat} {data : List UInt8} (h : off + data.length ≤ c.len) :
    (c.put off data).bytes = splice c.bytes off data := by
  have hc := c.length_le
  unfold len at h
  show written c.bytes off (data.take (maxOffset - off)) = _
  rw [List.take_of_length_le (by omega), written_inside h]

end Content

/-- How the host serves one transfer: in full, or it fails after `n` bytes. -/
inductive Host where
  | serves
  | fails (n : Nat)
deriving Repr, DecidableEq

/-- How many of `n` bytes the transfer moves. -/
def Host.moved (io : Host) (n : Nat) : Nat :=
  match io with
  | .serves => n
  | .fails k => min k n

theorem Host.moved_le (io : Host) (n : Nat) : io.moved n ≤ n := by
  cases io with
  | serves => exact Nat.le_refl n
  | fails k => exact Nat.min_le_right k n

structure File where
  content : Content
  pos : Nat

namespace File

/-- A freshly opened file. -/
def ofContent (c : Content) : File := ⟨c, 0⟩

/-- `metadata()?.len()` -/
def len : Act File Nat := ⟨fun f => (.ok f.content.len, f)⟩

/-- `seek(SeekFrom::Start(off))` -/
def seek (off : Nat) : Act File Unit where
  run f := if off ≤ maxOffset then (.ok (), { f with pos := off }) else (.err .host, f)

/-- One `read` into a buffer of `n` bytes: what is there of them. -/
def read (n : Nat) : Act File (List UInt8) where
  run f :=
    let data := slice f.content.bytes f.pos n
    (.ok data, { f with pos := f.pos + data.length })

/-- `read_exact` into a buffer of `n` bytes. -/
def readExact (io : Host) (n : Nat) : Act File (List UInt8) where
  run f :=
    if io = .serves ∧ f.pos + n ≤ f.content.len then
      (.ok (slice f.content.bytes f.pos n), { f with pos := f.pos + n })
    else (.err .host, { f with pos := f.pos + io.moved (min n (f.content.len - f.pos)) })

/-- `write_all` -/
def writeAll (io : Host) (buf : List UInt8) : Act File Unit where
  run f :=
    let n := io.moved buf.length
    (if io = .serves ∧ f.pos + n ≤ maxOffset then .ok () else .err .host,
      ⟨f.content.put f.pos (buf.take n), f.pos + min n (maxOffset - f.pos)⟩)

/-- `flush` of a file does nothing. -/
def flush : Act File Unit := pure ()

@[simp] theorem run_len (f : File) : len.run f = (.ok f.content.len, f) := rfl
@[simp] theorem run_flush (f : File) : flush.run f = (.ok (), f) := rfl

@[simp] theorem run_len_bind {β : Type} (k : Nat → Act File β) (f : File) :
    (len >>= k).run f = (k f.content.len).run f := rfl

theorem run_seek {off : Nat} (h : off ≤ maxOffset) (f : File) :
    (seek off).run f = (.ok (), { f with pos := off }) :=
  if_pos h

theorem run_readExact {f : File} {n : Nat} (h : f.pos + n ≤ f.content.len) :
    (readExact .serves n).run f =
      (.ok (slice f.content.bytes f.pos n), { f with pos := f.pos + n }) :=
  if_pos ⟨rfl, h⟩

theorem content_readExact (io : Host) (n : Nat) (f : File) :
    ((readExact io n).run f).2.content = f.content := by
  unfold readExact
  dsimp only
  split <;> rfl

theorem run_writeAll_fst {f : File} {buf : List UInt8} (h : f.pos + buf.length ≤ maxOffset)
    (io : Host) : ((writeAll io buf).run f).1 = if io = .serves then .ok () else .err .host := by
  by_cases hio : io = .serves
  · subst hio
    simp [writeAll, Host.moved, h]
  · simp [writeAll, hio]

@[simp] theorem content_writeAll (io : Host) (buf : List UInt8) (f : File) :
    ((writeAll io buf).run f).2.content =
      f.content.put f.pos (buf.take (io.moved buf.length)) := rfl

end File
end HostFile
