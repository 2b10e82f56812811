import Mathlib.Algebra.Group.Nat.Defs

/-!
# Byte strings: integers as bytes, slices and overlays

* `leBytes` / `leVal` / `beVal`: an unsigned integer as bytes and back.
* `Pod T`: plain values of type `T` have a size and are stored as their
  little-endian bytes; reading back the bytes of a value gives the value.
* `slice` / `splice`: part of a list, and a list with a part replaced.
* `window` / `overlay`: the same for a memory `Nat → α`.

A write at one place and a read at another do not meet (`_disjoint`); a read of
what was written gives it back (`_self`).
-/

namespace Bytes

/-! ## Integers as bytes -/

/-- The low `n` bytes of `v`, least significant first. -/
def leBytes : Nat → Nat → List UInt8
  | 0, _ => []
  | n + 1, v => UInt8.ofNat v :: leBytes n (v / 256)

def leVal : List UInt8 → Nat
  | [] => 0
  | b :: bs => b.toNat + 256 * leVal bs

def beVal (bs : List UInt8) : Nat := leVal bs.reverse

def beBytes (n v : Nat) : List UInt8 := (leBytes n v).reverse

@[simp] theorem length_leBytes (n v : Nat) : (leBytes n v).length = n := by
  induction n generalizing v <;> simp [leBytes, *]

@[simp] theorem length_beBytes (n v : Nat) : (beBytes n v).length = n := by
  simp [beBytes]

theorem leVal_leBytes (n v : Nat) : leVal (leBytes n v) = v % 256 ^ n := by
  induction n generalizing v with
  | zero => simp [leBytes, leVal, Nat.mod_one]
  | succ n ih =>
    rw [leBytes, leVal, ih, Nat.pow_succ, Nat.mul_comm (256 ^ n), Nat.mod_mul]
    simp

theorem leVal_zeros (n : Nat) : leVal (List.replicate n 0) = 0 := by
  induction n with
  | zero => rfl
  | succ n ih =>
    rw [List.replicate_succ, leVal, ih]
    rfl

/-- Plain values of a fixed size, stored as bytes. -/
class Pod (T : Type) where
  size : Nat
  toBytes : T → List UInt8
  ofBytes : List UInt8 → T
  length_toBytes : ∀ v, (toBytes v).length = size
  ofBytes_toBytes : ∀ v, ofBytes (toBytes v) = v

instance : Pod UInt8 where
  size := 1
  toBytes v := leBytes 1 v.toNat
  ofBytes bs := UInt8.ofNat (leVal bs)
  length_toBytes v := length_leBytes 1 v.toNat
  ofBytes_toBytes v := by rw [leVal_leBytes, show 256 ^ 1 = 2 ^ 8 from rfl,
    Nat.mod_eq_of_lt v.toNat_lt, UInt8.ofNat_toNat]

instance : Pod UInt16 where
  size := 2
  toBytes v := leBytes 2 v.toNat
  ofBytes bs := UInt16.ofNat (leVal bs)
  length_toBytes v := length_leBytes 2 v.toNat
  ofBytes_toBytes v := by rw [leVal_leBytes, show 256 ^ 2 = 2 ^ 16 from rfl,
    Nat.mod_eq_of_lt v.toNat_lt, UInt16.ofNat_toNat]

instance : Pod UInt32 where
  size := 4
  toBytes v := leBytes 4 v.toNat
  ofBytes bs := UInt32.ofNat (leVal bs)
  length_toBytes v := length_leBytes 4 v.toNat
  ofBytes_toBytes v := by rw [leVal_leBytes, show 256 ^ 4 = 2 ^ 32 from rfl,
    Nat.mod_eq_of_lt v.toNat_lt, UInt32.ofNat_toNat]

instance : Pod UInt64 where
  size := 8
  toBytes v := leBytes 8 v.toNat
  ofBytes bs := UInt64.ofNat (leVal bs)
  length_toBytes v := length_leBytes 8 v.toNat
  ofBytes_toBytes v := by rw [leVal_leBytes, show 256 ^ 8 = 2 ^ 64 from rfl,
    Nat.mod_eq_of_lt v.toNat_lt, UInt64.ofNat_toNat]

@[simp] theorem size_uint8 : Pod.size UInt8 = 1 := rfl
@[simp] theorem size_uint16 : Pod.size UInt16 = 2 := rfl
@[simp] theorem size_uint32 : Pod.size UInt32 = 4 := rfl
@[simp] theorem size_uint64 : Pod.size UInt64 = 8 := rfl

/-! ## Parts of a list -/

variable {α : Type}

def slice (l : List α) (off n : Nat) : List α := (l.drop off).take n

/-- `l` with `data` in place of the elements from `off` on. -/
def splice (l : List α) (off : Nat) (data : List α) : List α :=
  l.take off ++ data ++ l.drop (off + data.length)

theorem length_slice {l : List α} {off n : Nat} (h : off + n ≤ l.length) :
    (slice l off n).length = n := by
  simp [slice]; omega

theorem length_splice {l : List α} {off : Nat} {data : List α} (h : off + data.length ≤ l.length) :
    (splice l off data).length = l.length := by
  simp [splice]; omega

theorem getElem?_slice (l : List α) (off n i : Nat) :
    (slice l off n)[i]? = if i < n then l[off + i]? else none := by
  simp [slice, List.getElem?_take]

theorem getElem?_splice {l : List α} {off : Nat} {data : List α} (h : off ≤ l.length) (i : Nat) :
    (splice l off data)[i]? =
      if i < off then l[i]? else if i < off + data.length then data[i - off]? else l[i]? := by
  have hlen : (l.take off).length = off := by simp; omega
  rw [splice, List.append_assoc]
  by_cases h1 : i < off
  · rw [if_pos h1, List.getElem?_append_left (by omega), List.getElem?_take, if_pos h1]
  · rw [if_neg h1, List.getElem?_append_right (by omega), hlen]
    by_cases h2 : i < off + data.length
    · rw [if_pos h2, List.getElem?_append_left (by omega)]
    · rw [if_neg h2, List.getElem?_append_right (by omega), List.getElem?_drop]
      congr 1
      omega

theorem slice_splice_self (data : List α) {l : List α} {off : Nat} (h : off ≤ l.length) :
    slice (splice l off data) off data.length = data := by
  apply List.ext_getElem?
  intro i
  rw [getElem?_slice, getElem?_splice h]
  by_cases hi : i < data.length
  · rw [if_pos hi, if_neg (by omega), if_pos (by omega), Nat.add_sub_cancel_left]
  · rw [if_neg hi, List.getElem?_eq_none (by omega)]

theorem slice_splice_disjoint {l : List α} {off : Nat} {data : List α} {a n : Nat}
    (h : off ≤ l.length) (hd : a + n ≤ off ∨ off + data.length ≤ a) :
    slice (splice l off data) a n = slice l a n := by
  apply List.ext_getElem?
  intro i
  rw [getElem?_slice, getElem?_slice, getElem?_splice h]
  by_cases hi : i < n
  · rcases hd with hd | hd
    · rw [if_pos hi, if_pos hi, if_pos (by omega)]
    · rw [if_pos hi, if_pos hi, if_neg (by omega), if_neg (by omega)]
  · rw [if_neg hi, if_neg hi]

theorem slice_slice {l : List α} {off n a k : Nat} (h : a + k ≤ n) :
    slice (slice l off n) a k = slice l (off + a) k := by
  apply List.ext_getElem?
  intro i
  rw [getElem?_slice, getElem?_slice, getElem?_slice]
  by_cases hi : i < k
  · rw [if_pos hi, if_pos hi, if_pos (by omega), Nat.add_assoc]
  · rw [if_neg hi, if_neg hi]

theorem slice_append_left {l m : List α} {off n : Nat} (h : off + n ≤ l.length) :
    slice (l ++ m) off n = slice l off n := by
  apply List.ext_getElem?
  intro i
  rw [getElem?_slice, getElem?_slice]
  by_cases hi : i < n
  · rw [if_pos hi, if_pos hi, List.getElem?_append_left (by omega)]
  · rw [if_neg hi, if_neg hi]

theorem slice_append_right (l m : List α) (n : Nat) :
    slice (l ++ m) l.length n = m.take n := by
  rw [slice, List.drop_left]

/-! ## Parts of a memory -/

/-- The `n` cells of `m` from `off` on. -/
def window (m : Nat → α) (off n : Nat) : List α := (List.range n).map fun i => m (off + i)

/-- `m` with `data` in place of the cells from `off` on. -/
def overlay (m : Nat → α) (off : Nat) (data : List α) : Nat → α := fun a =>
  if off ≤ a then (data[a - off]?).getD (m a) else m a

theorem window_const (a : α) (off n : Nat) : window (fun _ => a) off n = List.replicate n a := by
  unfold window
  rw [List.map_const', List.length_range]

@[simp] theorem length_window (m : Nat → α) (off n : Nat) : (window m off n).length = n := by
  simp [window]

theorem overlay_of_mem {m : Nat → α} {off : Nat} {data : List α} {a : Nat} (h1 : off ≤ a)
    (h2 : a - off < data.length) : overlay m off data a = data[a - off] := by
  rw [overlay, if_pos h1, List.getElem?_eq_getElem h2, Option.getD_some]

theorem overlay_of_not_mem {m : Nat → α} {off : Nat} {data : List α} {a : Nat}
    (h : a < off ∨ off + data.length ≤ a) : overlay m off data a = m a := by
  unfold overlay
  rcases h with h | h
  · rw [if_neg (by omega)]
  · rw [if_pos (by omega), List.getElem?_eq_none (by omega), Option.getD_none]

theorem window_congr {m m' : Nat → α} {off n : Nat} (h : ∀ i, i < n → m (off + i) = m' (off + i)) :
    window m off n = window m' off n := by
  apply List.map_congr_left
  intro i hi
  exact h i (List.mem_range.mp hi)

theorem window_overlay_self (m : Nat → α) (off : Nat) (data : List α) :
    window (overlay m off data) off data.length = data := by
  apply List.ext_getElem
  · simp
  · intro i h1 h2
    have hi : off + i - off = i := by omega
    simp only [window, List.getElem_map, List.getElem_range]
    rw [overlay_of_mem (by omega) (by omega)]
    simp only [hi]

theorem window_overlay_disjoint {m : Nat → α} {off : Nat} {data : List α} {a n : Nat}
    (h : a + n ≤ off ∨ off + data.length ≤ a) :
    window (overlay m off data) a n = window m a n :=
  window_congr fun i hi => overlay_of_not_mem (by omega)

/-- A value stored at a place reads back. -/
theorem ofBytes_window_overlay_self {T : Type} [Pod T] (m : Nat → UInt8) (off : Nat) (v : T) :
    Pod.ofBytes (window (overlay m off (Pod.toBytes v)) off (Pod.size T)) = v := by
  rw [← Pod.length_toBytes v, window_overlay_self, Pod.ofBytes_toBytes]

end Bytes
