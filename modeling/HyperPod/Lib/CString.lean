import HyperPod.Lib.Bytes
import Mathlib.Data.List.TakeWhile

/-!
# NUL-terminated byte strings

A string is stored as its bytes and a NUL, and read up to the first NUL.  What is
read back is the string up to its own first NUL (`read_stored`), so the strings that
come back whole are those that hold none (`takeWhile_ne_zero_eq_self`); for text in
UTF-8 that is the character NUL (`zero_mem_utf8EncodeChar`).
-/

namespace CString

open Bytes

/-- The bytes from `a` up to the first NUL, if there is one in the next `left` cells. -/
def read (mem : Nat → UInt8) : Nat → Nat → Option (List UInt8)
  | 0, _ => none
  | left + 1, a => if mem a = 0 then some [] else (read mem left (a + 1)).map (mem a :: ·)

theorem window_succ {α : Type} (m : Nat → α) (a n : Nat) :
    window m a (n + 1) = m a :: window m (a + 1) n := by
  unfold window
  rw [List.range_succ_eq_map, List.map_cons, List.map_map, Nat.add_zero]
  refine congrArg _ (List.map_congr_left fun i _ => ?_)
  rw [Function.comp_apply, Nat.succ_eq_add_one, Nat.add_assoc, Nat.add_comm 1 i]

/-- **Reading a stored string** gives its bytes up to the first NUL among them. -/
theorem read_stored {mem : Nat → UInt8} {a left : Nat} {bs : List UInt8}
    (hbs : window mem a bs.length = bs) (hnul : mem (a + bs.length) = 0)
    (hlen : bs.length < left) : read mem left a = some (bs.takeWhile (· ≠ 0)) := by
  induction bs generalizing a left with
  | nil =>
    obtain ⟨left, rfl⟩ := Nat.exists_eq_succ_of_ne_zero (Nat.ne_zero_of_lt hlen)
    exact if_pos hnul
  | cons b bs ih =>
    obtain ⟨left, rfl⟩ := Nat.exists_eq_succ_of_ne_zero (Nat.ne_zero_of_lt hlen)
    rw [List.length_cons, window_succ] at hbs
    obtain ⟨hb, hrest⟩ := List.cons.inj hbs
    rw [List.length_cons] at hlen hnul
    rw [read, List.takeWhile_cons, hb]
    by_cases hz : b = 0
    · rw [if_pos hz, if_neg (by simpa using hz)]
    · have hnext : mem (a + 1 + bs.length) = 0 := by
        rw [Nat.add_assoc, Nat.add_comm 1]
        exact hnul
      rw [if_neg hz, if_pos (by simpa using hz), ih hrest hnext (by omega)]
      rfl

theorem takeWhile_ne_zero_eq_self {bs : List UInt8} :
    bs.takeWhile (· ≠ 0) = bs ↔ (0 : UInt8) ∉ bs := by
  rw [List.takeWhile_eq_self_iff]
  constructor
  · intro h hz
    simpa using h 0 hz
  · intro h b hb
    exact decide_eq_true fun hz => h (hz ▸ hb)

/-! ## Text in UTF-8 -/

theorem zero_ne_or {x k : UInt8} (hk : k ≠ 0) : 0 ≠ x ||| k := by
  intro h
  exact hk (UInt8.or_eq_zero_iff.mp h.symm).2

/-- Only the character NUL has a zero byte: the bytes of the longer encodings have bit 7 set. -/
theorem zero_mem_utf8EncodeChar {c : Char} :
    (0 : UInt8) ∈ String.utf8EncodeChar c ↔ c = Char.ofNat 0 := by
  constructor
  · intro h
    rcases Char.utf8Size_eq c with hsize | hsize | hsize | hsize
    · have hle : c.val.toNat ≤ 127 := UInt32.le_iff_toNat_le.mp (Char.utf8Size_eq_one_iff.mp hsize)
      rw [String.utf8EncodeChar_eq_singleton hsize] at h
      have hnat := congrArg UInt8.toNat (List.mem_singleton.mp h)
      rw [UInt32.toNat_toUInt8, UInt8.toNat_zero] at hnat
      have hval : c.val.toNat = 0 := by omega
      exact Char.ext (UInt32.toNat_inj.mp hval)
    · rw [String.utf8EncodeChar_eq_cons_cons hsize] at h
      simp [zero_ne_or] at h
    · rw [String.utf8EncodeChar_eq_cons_cons_cons hsize] at h
      simp [zero_ne_or] at h
    · rw [String.utf8EncodeChar_eq_cons_cons_cons_cons hsize] at h
      simp [zero_ne_or] at h
  · rintro rfl
    decide

/-- Only text that holds a NUL has a zero byte. -/
theorem zero_mem_toUTF8 {s : String} :
    (0 : UInt8) ∈ s.toUTF8.data.toList ↔ Char.ofNat 0 ∈ s.toList := by
  have hchars : ∀ l : List Char,
      (0 : UInt8) ∈ l.utf8Encode.data.toList ↔ Char.ofNat 0 ∈ l := by
    intro l
    induction l with
    | nil => simp [List.utf8Encode]
    | cons c l ih =>
      rw [List.utf8Encode_cons, List.utf8Encode_singleton]
      simp [zero_mem_utf8EncodeChar, ih, eq_comm]
  rw [← hchars, String.utf8Encode_toList]
  rfl

end CString
