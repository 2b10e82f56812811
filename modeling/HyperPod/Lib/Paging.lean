import HyperPod.Lib.Bytes

/-!
# x86-64 four-level paging

`walk mem cr3 va` follows the paging structures in `mem` from the PML4 table at `cr3`:
512 entries of eight bytes a table, nine bits of the address a level, with 1 GiB and
2 MiB pages where an entry of the third or second level has its page-size bit set.
-/

namespace Paging

open Bytes

/-- Where an address leads, with the size of the page and whether every level lets it
be written. -/
inductive Translation where
  | notPresent
  | page (phys size : Nat) (writable : Bool)
deriving Repr, DecidableEq

/-- The paging-structure entry at a physical address. -/
def readEntry (mem : Nat → UInt8) (a : Nat) : Nat := leVal (window mem a 8)

/-! Bits of an entry. -/

def present (e : Nat) : Bool := e % 2 = 1
def writable (e : Nat) : Bool := e / 2 % 2 = 1
def pageSize (e : Nat) : Bool := e / 2 ^ 7 % 2 = 1

/-- The physical address in bits `shift` to 51. -/
def frame (shift e : Nat) : Nat := e / 2 ^ shift % 2 ^ (52 - shift) * 2 ^ shift

/-- The entry of a table that an address selects. -/
def index (shift va : Nat) : Nat := va / 2 ^ shift % 512

/-- The walk from a table `level` levels above the pages of 4 KiB. -/
def walkFrom (mem : Nat → UInt8) (va : Nat) : Nat → Nat → Bool → Translation
  | 0, page, w => .page (page + va % 2 ^ 12) (2 ^ 12) w
  | level + 1, table, w =>
    let shift := 12 + 9 * level
    let e := readEntry mem (table + index shift va * 8)
    if present e then
      if pageSize e && (level == 1 || level == 2) then
        .page (frame shift e + va % 2 ^ shift) (2 ^ shift) (w && writable e)
      else walkFrom mem va level (frame 12 e) (w && writable e)
    else .notPresent

def walk (mem : Nat → UInt8) (cr3 va : Nat) : Translation := walkFrom mem va 4 cr3 true

/-- Bits 48 to 63 of the address repeat bit 47. -/
def Canonical (va : Nat) : Prop := va < 2 ^ 47 ∨ 2 ^ 64 - 2 ^ 47 ≤ va ∧ va < 2 ^ 64

variable {mem : Nat → UInt8} {va level table : Nat} {w : Bool}

theorem leVal_toBytes (v : UInt64) : leVal (Pod.toBytes v) = v.toNat := by
  show leVal (leBytes 8 v.toNat) = v.toNat
  rw [leVal_leBytes]
  exact Nat.mod_eq_of_lt v.toNat_lt

/-- An entry stored in memory is what the walk reads. -/
theorem readEntry_of_window {a : Nat} {v : UInt64} (h : window mem a 8 = Pod.toBytes v) :
    readEntry mem a = v.toNat := by
  rw [readEntry, h, leVal_toBytes]

theorem readEntry_zero {a : Nat} (h : ∀ i, i < 8 → mem (a + i) = 0) : readEntry mem a = 0 := by
  have hz : window mem a 8 = window (fun _ => 0) a 8 := window_congr h
  rw [readEntry, hz, window_const, leVal_zeros]

theorem walkFrom_zero_entry
    (h : readEntry mem (table + index (12 + 9 * level) va * 8) = 0) :
    walkFrom mem va (level + 1) table w = .notPresent := by
  rw [walkFrom]
  simp only [h]
  rfl

/-- A present entry without the page-size bit leads to the next table. -/
theorem walkFrom_table {e : Nat}
    (h : readEntry mem (table + index (12 + 9 * level) va * 8) = e) (hp : present e = true)
    (hs : pageSize e = false) :
    walkFrom mem va (level + 1) table w =
      walkFrom mem va level (frame 12 e) (w && writable e) := by
  rw [walkFrom]
  simp only [h, hp, hs, Bool.false_and, if_true, Bool.false_eq_true, if_false]

/-- A present entry of the second level with the page-size bit maps 2 MiB. -/
theorem walkFrom_huge {e : Nat} (h : readEntry mem (table + index 21 va * 8) = e)
    (hp : present e = true) (hs : pageSize e = true) :
    walkFrom mem va 2 table w = .page (frame 21 e + va % 2 ^ 21) (2 ^ 21) (w && writable e) := by
  rw [walkFrom]
  simp only [h, hp, hs, if_true]
  rfl

end Paging
